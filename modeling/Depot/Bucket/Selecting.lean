import Depot.Bucket.Deletion
import Depot.Selection

/-!
# Running selections

The records that match are found in one scan, in key order; then the objects are
fetched or deleted one by one. An object that is gone by then is passed over.
-/

namespace Depot.Bucket

/-- The identities of the matching ones among the entries of the metadata region.
Every record must be readable, and so must the key of every matching one. -/
def matching (selection : Selection) : List (Bytes × Bytes) → Except DataError (List Uuid)
  | [] => .ok []
  | (key, value) :: rest =>
    match Metadata.decode value with
    | .error error => .error error
    | .ok record =>
      if selection.selects record then
        match Uuid.ofKey key with
        | .error error => .error error
        | .ok identity =>
          match matching selection rest with
          | .error error => .error error
          | .ok identities => .ok (identity :: identities)
      else matching selection rest

/-- The identities that a selection selects, in key order. -/
def select (_bucket : Bucket) (selection : Selection) : Session (List Uuid) := do
  Session.accept selection.validate
  Session.scan .metadata fun records => Session.decoded (matching selection records.entries)

/-- Fetches the objects of these identities, passing over missing ones. -/
def fetchEach (bucket : Bucket) : List Uuid → Session (List Object)
  | [] => pure []
  | identity :: rest => do
    match ← Session.attempt (bucket.fetch identity) with
    | .ok object => return object :: (← bucket.fetchEach rest)
    | .error error =>
      if error.isNotFound then
        Session.emit (.matchVanished identity)
        bucket.fetchEach rest
      else Session.fail error

/-- Deletes the objects of these identities, passing over missing ones; says how
many were deleted. -/
def deleteEach (bucket : Bucket) : List Uuid → Session Nat
  | [] => pure 0
  | identity :: rest => do
    match ← Session.attempt (bucket.delete identity) with
    | .ok () => return (← bucket.deleteEach rest) + 1
    | .error error =>
      if error.isNotFound then
        Session.emit (.matchAlreadyDeleted identity)
        bucket.deleteEach rest
      else Session.fail error

/-- Fetches the selected objects. -/
def fetchSelected (bucket : Bucket) (selection : Selection) : Session (List Object) := do
  let identities ← bucket.select selection
  let objects ← bucket.fetchEach identities
  bucket.report (.selectionFetched objects.length selection.connective)
  return objects

/-- Deletes the selected objects and says how many were deleted. -/
def deleteSelected (bucket : Bucket) (selection : Selection) : Session Nat := do
  let identities ← bucket.select selection
  let count ← bucket.deleteEach identities
  bucket.report (.selectionDeleted count selection.connective)
  return count

/-- What comes of running a selection. -/
inductive Answer where
  | fetched (objects : List Object)
  | deleted (count : Nat)

/-- Runs a selection for its purpose. -/
def run (bucket : Bucket) (selection : Selection) : Session Answer :=
  match selection.purpose with
  | .fetch => Answer.fetched <$> bucket.fetchSelected selection
  | .delete => Answer.deleted <$> bucket.deleteSelected selection

end Depot.Bucket
