import Depot.Uuid

/-!
# What can be wrong with data

The causes for which an object, a selection, an identity or a record is
refused, and their wording. What can go wrong in a store is not here.
-/

namespace Depot

/-- Why bytes are not the record or the key they should be. -/
inductive Malformation where
  /-- The bytes end before a count or a length is complete. -/
  | truncated
  /-- A length reaches past the end of the bytes. -/
  | overrun
  | entryNotText (fault : Utf8.Fault)
  | keyNotText (fault : Utf8.Fault)
deriving DecidableEq, Repr

/-- The wording of a malformation. -/
def Malformation.message : Malformation → String
  | .truncated => "io error: unexpected end of file"
  | .overrun => "io error: "
  | .entryNotText fault => "string is not valid utf8: " ++ fault.message
  | .keyNotText fault => fault.message

/-- Why data is refused. -/
inductive DataError where
  | invalidUuid (field value : String)
  | emptySelection
  | nameWithoutOwner
  | nameTooLong (size limit : Nat)
  /-- An object lacks a field, or the field is empty. -/
  | missingField (field : String)
  | sealed (identity : Uuid)
  | malformed (cause : Malformation)
deriving DecidableEq, Repr

/-- The wording of a refusal. -/
def DataError.message : DataError → String
  | .invalidUuid field value => "invalid uuid for the field `" ++ field ++ "`: " ++ value
  | .emptySelection => "query has no parameters"
  | .nameWithoutOwner => "a `name` parameter requires an `owner` parameter"
  | .nameTooLong size limit => s!"object name is {size} bytes, the limit is {limit}"
  | .missingField field => "object field `" ++ field ++ "` is missing"
  | .sealed identity => "object " ++ identity.toText ++ " is immutable"
  | .malformed cause => "serialization error: " ++ cause.message

namespace Uuid

/-- Reads an identity; a text that spells none is a fault of the field `id`. -/
def ofText (text : String) : Except DataError Uuid :=
  match parse? text with
  | some uuid => .ok uuid
  | none => .error (.invalidUuid "id" text)

/-- Reads an identity from a storage key. -/
def ofKey (key : Bytes) : Except DataError Uuid :=
  match Utf8.decode key with
  | .ok text => ofText text
  | .error fault => .error (.malformed (.keyNotText fault))

/-- The canonical text of what `text` spells; `field` is blamed if that is no
identifier. -/
def normalise (field text : String) : Except DataError String :=
  match parse? text with
  | some uuid => .ok uuid.toText
  | none => .error (.invalidUuid field text)

end Uuid

end Depot
