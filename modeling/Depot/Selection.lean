import Depot.DataError
import Depot.Metadata.Matching

/-!
# Selections

Parameters that records are matched against, how they are joined, and what is
done with the objects selected. Parameters for an owner or an identity are kept
in canonical form, which is also how stores keep them.
-/

namespace Depot

/-- What is done with the selected objects. -/
inductive Purpose where
  | fetch
  | delete
deriving DecidableEq, Repr, Inhabited

/-- Which objects are meant, and what for. -/
structure Selection where
  parameters : Metadata := .empty
  connective : Connective := .any
  purpose : Purpose := .fetch
deriving DecidableEq, Inhabited

namespace Selection

/-- Adds a parameter; owners and identities are kept in canonical form. -/
def parameter (selection : Selection) (key value : String) : Selection :=
  let kept :=
    if key = Metadata.Key.owner.text ∨ key = Metadata.Key.id.text then Uuid.canonicalise value
    else value
  { selection with parameters := selection.parameters.assign key kept }

/-- Adds a parameter for the owner. -/
def owner (selection : Selection) (value : String) : Selection :=
  selection.parameter Metadata.Key.owner.text value

/-- Adds a parameter for the identity. -/
def id (selection : Selection) (value : String) : Selection :=
  selection.parameter Metadata.Key.id.text value

/-- Adds a parameter for the name. -/
def name (selection : Selection) (value : String) : Selection :=
  selection.parameter Metadata.Key.name.text value

/-- The value of a parameter, if it has one. -/
def constraint? (selection : Selection) (key : Metadata.Key) : Option String :=
  (selection.parameters.get? key.text).filter (· ≠ "")

/-- Refuses a value that is given but spells no identifier. -/
def requireSpelling (field : String) : Option String → Except DataError Unit
  | none => .ok ()
  | some value => if Uuid.isSpelling value then .ok () else .error (.invalidUuid field value)

/-- Whether the selection may be run: it has a parameter with a value, owner and
identity spell identifiers, and a name comes with an owner. -/
def validate (selection : Selection) : Except DataError Unit := do
  if selection.parameters.toList.all (·.2 = "") then
    throw .emptySelection
  requireSpelling Metadata.Key.owner.text (selection.constraint? .owner)
  requireSpelling Metadata.Key.id.text (selection.constraint? .id)
  if (selection.constraint? .name).isSome && (selection.constraint? .owner).isNone then
    throw .nameWithoutOwner

/-- Whether a record is selected. -/
def selects (selection : Selection) (record : Metadata) : Bool :=
  record.isSelected selection.parameters selection.connective

end Selection

end Depot
