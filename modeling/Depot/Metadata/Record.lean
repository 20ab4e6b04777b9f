import Depot.DataError
import Depot.Metadata

/-!
# Metadata records

The stored form of a metadata bag: the number of values, then every key and
value as a length followed by that many bytes of text. Numbers are 64-bit words,
lowest byte first. Written records list keys in order; read ones may list them in
any order, repeat them, and be followed by anything.
-/

namespace Depot

/-- A number as a word of `width` bytes, lowest byte first. -/
def littleEndian : (width : Nat) → (number : Nat) → Bytes
  | 0, _ => []
  | width + 1, number => UInt8.ofNat (number % 256) :: littleEndian width (number / 256)

/-- The number that a word spells, lowest byte first. -/
def ofLittleEndian : Bytes → Nat
  | [] => 0
  | byte :: rest => byte.toNat + 256 * ofLittleEndian rest

namespace Metadata

/-- The bytes of a number of values or of a length. -/
def wordSize : Nat := 8

/-- A number as it stands in a record. -/
def encodeWord (number : Nat) : Bytes := littleEndian wordSize number

/-- A text as it stands in a record: its length, then its bytes. -/
def encodeText (text : String) : Bytes :=
  let bytes := Utf8.encode text
  encodeWord bytes.length ++ bytes

/-- The stored form of a bag. -/
def encode (metadata : Metadata) : Bytes :=
  encodeWord metadata.size
    ++ metadata.toList.flatMap fun entry => encodeText entry.1 ++ encodeText entry.2

/-- Reads a number and gives the bytes after it. -/
def takeWord (bytes : Bytes) : Except Malformation (Nat × Bytes) :=
  let word := bytes.take wordSize
  if word.length < wordSize then .error .truncated
  else .ok (ofLittleEndian word, bytes.drop wordSize)

/-- Reads a text and gives the bytes after it. -/
def takeText (bytes : Bytes) : Except Malformation (String × Bytes) :=
  match takeWord bytes with
  | .error cause => .error cause
  | .ok (size, rest) =>
    let taken := rest.take size
    if taken.length < size then .error .overrun
    else
      match Utf8.decode taken with
      | .error fault => .error (.entryNotText fault)
      | .ok text => .ok (text, rest.drop size)

/-- Reads a key and its value and gives the bytes after them. -/
def takeEntry (bytes : Bytes) : Except Malformation ((String × String) × Bytes) :=
  match takeText bytes with
  | .error cause => .error cause
  | .ok (key, rest) =>
    match takeText rest with
    | .error cause => .error cause
    | .ok (value, rest) => .ok ((key, value), rest)

/-- Reads `count` keys with their values; what follows them is not looked at. -/
def takeEntries : (count : Nat) → Bytes → Except Malformation (List (String × String))
  | 0, _ => .ok []
  | count + 1, bytes =>
    match takeEntry bytes with
    | .error cause => .error cause
    | .ok (entry, rest) =>
      match takeEntries count rest with
      | .error cause => .error cause
      | .ok entries => .ok (entry :: entries)

/-- The bag that a record stores. -/
def decode (bytes : Bytes) : Except DataError Metadata :=
  match takeWord bytes with
  | .error cause => .error (.malformed cause)
  | .ok (count, rest) =>
    match takeEntries count rest with
    | .error cause => .error (.malformed cause)
    | .ok entries => .ok (ofEntries entries)

end Metadata

end Depot
