import Depot.Batch
import Depot.NameKey
import Depot.Object

/-!
# Entries

An object ready to be written: its three keys and values, and the batch that
writes each of them. Only the name is written as a new key, so a name that is
taken makes the batch fail, and that failure is told in terms of the object.
-/

namespace Depot

/-- An object in the form in which the regions hold it. -/
structure Entry where
  identity : Uuid
  name : String
  owner : String
  payload : Bytes
  record : Bytes
deriving DecidableEq

namespace Entry

/-- The entry of an object that may be stored. -/
def prepare (requireContentType : Bool) (object : Object) : Except DataError Entry := do
  object.requireUnsealed
  object.validate requireContentType
  return ⟨object.identity, object.name, object.owner, object.payload, object.metadata.encode⟩

/-- The key of content and record. -/
def key (entry : Entry) : Bytes := entry.identity.key

/-- The key in the name region. -/
def nameKey (entry : Entry) : Bytes := Depot.nameKey entry.name entry.owner

/-- Writes the content. -/
def payloadWrite (entry : Entry) : Batch := Batch.empty.put .payload entry.key entry.payload

/-- Writes the name, which must be new. -/
def nameWrite (entry : Entry) : Batch := Batch.empty.putNew .name entry.nameKey entry.key

/-- Writes the metadata record. -/
def recordWrite (entry : Entry) : Batch := Batch.empty.put .metadata entry.key entry.record

/-- Writes everything, the name first. -/
def fullWrite (entry : Entry) : Batch :=
  (entry.nameWrite.extend entry.payloadWrite).extend entry.recordWrite

/-- The failure that the name is taken. -/
def conflict (entry : Entry) : StoreError := .nameTaken entry.name entry.owner

/-- Tells the failure of a commit of these entries: a name key that is taken is
the conflict of the entry whose key it is. The failure shows the key as text, so
that text is what the keys of the entries are compared with. -/
def explain (entries : List Entry) (error : StoreError) : StoreError :=
  match error with
  | .keyTaken .name key =>
    let shown := Utf8.encode (Utf8.decodeLossy key)
    match entries.find? fun entry => entry.nameKey = shown with
    | some entry => entry.conflict
    | none => error
  | _ => error

/-- The first entry whose name key an earlier entry has already; `seen` are the
keys of entries before these. -/
def firstRepeated (seen : List Bytes) : List Entry → Option Entry
  | [] => none
  | entry :: rest =>
    if entry.nameKey ∈ seen then some entry else firstRepeated (entry.nameKey :: seen) rest

end Entry

end Depot
