import Depot.FileTree.Engine
import Depot.Metadata.Record

/-!
# Engine files as bytes

The bytes of an engine's file: a mark, then the entries of every region, each as
a key and a value with their lengths. Reading accepts nothing but what follows
this form to its end.
-/

namespace Depot

namespace Contents

/-- The bytes with which the engine's file begins. -/
def imageMark : Bytes := Utf8.encode "depot 1\n"

/-- Bytes after their length. -/
def sizedBytes (bytes : Bytes) : Bytes := Metadata.encodeWord bytes.length ++ bytes

/-- The entries of a region: their number, then keys and values. -/
def regionImage (entries : List (Bytes × Bytes)) : Bytes :=
  Metadata.encodeWord entries.length
    ++ entries.flatMap fun entry => sizedBytes entry.1 ++ sizedBytes entry.2

/-- The bytes of an engine's file. -/
def image (contents : Contents) : Bytes :=
  imageMark ++ regionImage contents.payloads.entries ++ regionImage contents.names.entries
    ++ regionImage contents.records.entries

/-- Takes bytes after their length, and gives what follows. -/
def takeSizedBytes (bytes : Bytes) : Option (Bytes × Bytes) :=
  match Metadata.takeWord bytes with
  | .error _ => none
  | .ok (size, rest) =>
    let taken := rest.take size
    if taken.length < size then none else some (taken, rest.drop size)

/-- Takes so many entries, and gives what follows. -/
def takeEntries : (count : Nat) → Bytes → Option (List (Bytes × Bytes) × Bytes)
  | 0, bytes => some ([], bytes)
  | count + 1, bytes => do
    let (key, bytes) ← takeSizedBytes bytes
    let (value, bytes) ← takeSizedBytes bytes
    let (entries, bytes) ← takeEntries count bytes
    return ((key, value) :: entries, bytes)

/-- Takes a region, and gives what follows. -/
def takeRegion (bytes : Bytes) : Option (OrderedMap Bytes Bytes × Bytes) := do
  let (count, bytes) ← (Metadata.takeWord bytes).toOption
  if bytes.length < count then failure
  let (entries, bytes) ← takeEntries count bytes
  return (.ofList entries, bytes)

/-- What a store holds whose engine's file has these bytes. -/
def ofImage? (bytes : Bytes) : Option Contents := do
  if !imageMark.isPrefixOf bytes then failure
  let (payloads, bytes) ← takeRegion (bytes.drop imageMark.length)
  let (names, bytes) ← takeRegion bytes
  let (records, bytes) ← takeRegion bytes
  if bytes.isEmpty then return ⟨payloads, names, records⟩ else failure

end Contents

/-- What a file is that has these bytes at a place. -/
def Node.ofBytes (place : Place) (bytes : Bytes) : Node :=
  if place.getLast? = some FileTree.engineFile then
    match Contents.ofImage? bytes with
    | some contents => .engine contents
    | none => .file bytes
  else .file bytes

end Depot
