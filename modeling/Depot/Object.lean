import Depot.Instant
import Depot.Metadata.Record
import Depot.Text.Quoted

/-!
# Objects

A named payload with an owner and a metadata bag. An object can be changed until
it is sealed, which happens when a store has taken it in; from then on every
change is refused. Identity, name, owner and time of making stand in the metadata
bag, so that selections can match them, and the owner stands there in canonical
form whenever it spells an identifier.
-/

namespace Depot

/-- A named payload with an owner and metadata. -/
structure Object where
  identity : Uuid
  /-- The metadata bag, system fields included. -/
  metadata : Metadata
  payload : Bytes
  /-- Whether changes are refused. -/
  isSealed : Bool
deriving DecidableEq

/-- Why bytes written to an object as to a stream are refused: the object may
not be changed. -/
structure StreamRefusal where
  cause : DataError
deriving DecidableEq, Repr

namespace Object

/-- The longest name, in bytes; with an owner it still fits the keys of every
engine. -/
def nameLimit : Nat := 255

/-- A new object of an owner, with the system fields set and no content. -/
def make (identity owner : Uuid) (name : String) (now : Instant) : Object where
  identity := identity
  metadata := Metadata.empty
    |>.assign Metadata.Key.id.text identity.toText
    |>.assign Metadata.Key.name.text name
    |>.assign Metadata.Key.owner.text owner.toText
    |>.assign Metadata.Key.createdAt.text now.toText
  payload := []
  isSealed := false

/-- A new object; the identity is drawn only once the owner is accepted. -/
def create (source : Uuid.Source) (now : Instant) (name owner : String) :
    Except DataError Object × Uuid.Source :=
  match Uuid.parse? owner with
  | none => (.error (.invalidUuid Metadata.Key.owner.text owner), source)
  | some ownerUuid =>
    let (identity, rest) := source.next
    (.ok (make identity ownerUuid name now), rest)

/-- The object that stored metadata and content make up; it is sealed. -/
def restore (metadata : Metadata) (payload : Bytes) : Except DataError Object := do
  match metadata.get? Metadata.Key.id.text with
  | none => throw (.missingField Metadata.Key.id.text)
  | some text =>
    let identity ← Uuid.ofText text
    unless metadata.has Metadata.Key.name.text do
      throw (.missingField Metadata.Key.name.text)
    unless metadata.has Metadata.Key.owner.text do
      throw (.missingField Metadata.Key.owner.text)
    return ⟨identity, metadata, payload, true⟩

/-- The name, or nothing where there is none. -/
def name (object : Object) : String := (object.metadata.get? Metadata.Key.name.text).getD ""

/-- The owner, or nothing where there is none. -/
def owner (object : Object) : String := (object.metadata.get? Metadata.Key.owner.text).getD ""

/-- The kind of content, if it is given. -/
def contentType? (object : Object) : Option String :=
  object.metadata.get? Metadata.Key.contentType.text

/-- When the object was made, if that is known. -/
def createdAt? (object : Object) : Option String :=
  object.metadata.get? Metadata.Key.createdAt.text

/-- The size of the content in bytes. -/
def size (object : Object) : Nat := object.payload.length

/-- Whether there is no content. -/
def isEmpty (object : Object) : Bool := object.payload.isEmpty

/-- Refuses a sealed object. -/
def requireUnsealed (object : Object) : Except DataError Unit :=
  if object.isSealed then .error (.sealed object.identity) else .ok ()

/-- Adds bytes to the content and says how many. -/
def append (object : Object) (bytes : Bytes) : Except DataError (Nat × Object) := do
  object.requireUnsealed
  return (bytes.length, { object with payload := object.payload ++ bytes })

/-- Adds bytes to the content as to a stream. -/
def write (object : Object) (bytes : Bytes) : Except StreamRefusal (Nat × Object) :=
  (object.append bytes).mapError StreamRefusal.mk

/-- The value that is kept when `value` is set under `key`: an owner that spells
an identifier is kept in canonical form. -/
def keptValue (key value : String) : String :=
  if key = Metadata.Key.owner.text then Uuid.canonicalise value else value

/-- Sets a metadata value; keys of the store are left as they are. -/
def setValue (object : Object) (key value : String) : Except DataError Object := do
  object.requireUnsealed
  return { object with metadata := object.metadata.set key (keptValue key value) }

/-- Removes a metadata value; keys of the store are left as they are. -/
def removeValue (object : Object) (key : String) : Except DataError Object := do
  object.requireUnsealed
  return { object with metadata := object.metadata.remove key }

/-- Whether the object may be stored: it has a name within the limit, an owner,
its own identity, and a kind of content where one is required. -/
def validate (object : Object) (requireContentType : Bool) : Except DataError Unit := do
  if object.name = "" then
    throw (.missingField Metadata.Key.name.text)
  if nameLimit < object.name.utf8ByteSize then
    throw (.nameTooLong object.name.utf8ByteSize nameLimit)
  if object.owner = "" then
    throw (.missingField Metadata.Key.owner.text)
  unless Uuid.isSpelling object.owner do
    throw (.invalidUuid Metadata.Key.owner.text object.owner)
  match object.metadata.get? Metadata.Key.id.text with
  | none => throw (.missingField Metadata.Key.id.text)
  | some text =>
    unless Uuid.parse? text = some object.identity do
      throw (.invalidUuid Metadata.Key.id.text text)
  if requireContentType && object.contentType?.getD "" = "" then
    throw (.missingField Metadata.Key.contentType.text)

/-- The object with all further changes refused. -/
def sealed (object : Object) : Object := { object with isSealed := true }

/-- The portions in which a reader of at most `portion` bytes a time gets bytes,
up to the empty one that ends them. -/
def portions (portion : Nat) (bytes : Bytes) : List Bytes :=
  if portion = 0 ∨ bytes = [] then [[]]
  else bytes.take portion :: portions portion (bytes.drop portion)
termination_by bytes.length
decreasing_by
  rename_i more
  have : bytes.length ≠ 0 := fun zero => more (.inr (List.length_eq_zero_iff.1 zero))
  simp only [List.length_drop]; omega

/-- The object in one line. -/
def describe (object : Object) : String :=
  "Object \x7b id: " ++ object.identity.describe ++ ", name: " ++ Text.quoted object.name
    ++ ", owner: " ++ Text.quoted object.owner ++ ", size: " ++ toString object.size
    ++ ", immutable: " ++ toString object.isSealed ++ " \x7d"

end Object

end Depot
