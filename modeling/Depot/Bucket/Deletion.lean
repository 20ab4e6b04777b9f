import Depot.Bucket.Lookup

/-!
# Deleting objects

An object's three entries are removed: the name only while it still leads to the
object, then the content, then the record. The record goes last, so a deletion
that fails half-way can be tried again.
-/

namespace Depot.Bucket

/-- The key of the name that a record claims, if it has a name and an owner. -/
def claimedName (metadata : Metadata) : Option Bytes :=
  match metadata.get? Metadata.Key.name.text, metadata.get? Metadata.Key.owner.text with
  | some name, some owner => some (nameKey name owner)
  | _, _ => none

/-- The batch that removes the name of a record, while it leads to the identity. -/
def nameRemoval (identity : Uuid) (metadata : Metadata) : Session Batch := do
  match claimedName metadata with
  | none => return .empty
  | some key =>
    if (← Session.value? .name key) = some identity.key then
      return Batch.empty.delete .name key
    else return .empty

/-- Removes the object of an identity. -/
def delete (bucket : Bucket) (identity : Uuid) : Session Unit := do
  let metadata ← bucket.metadata identity
  let names ← nameRemoval identity metadata
  let contents := Batch.empty.delete .payload identity.key
  let records := Batch.empty.delete .metadata identity.key
  match bucket.settings.writeMode with
  | .atomic => Session.commit ((names.extend contents).extend records)
  | .independent =>
    unless names.isEmpty do
      Session.commit names
    Session.commit contents
    Session.commit records
  bucket.report (.objectDeleted identity)

/-- Removes the object of a name. -/
def deleteNamed (bucket : Bucket) (name owner : String) : Session Unit := do
  bucket.delete (← bucket.resolve name owner)

end Depot.Bucket
