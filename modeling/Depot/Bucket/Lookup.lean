import Depot.Bucket.Basic
import Depot.NameKey
import Depot.Object

/-!
# Finding objects

Records, contents and whole objects by identity, and identities by name and
owner. A missing entry is told as a missing object; bytes that cannot be read are
a failure of their own.
-/

namespace Depot.Bucket

/-- Takes a value that must be there for an object to be there. -/
def require {α : Type} (missing : StoreError) : Option α → Session α
  | some value => pure value
  | none => Session.fail missing

/-- The metadata of an object. -/
def metadata (_bucket : Bucket) (identity : Uuid) : Session Metadata := do
  let record ← require (.notFound identity) (← Session.value? .metadata identity.key)
  Session.decoded (Metadata.decode record)

/-- The content of an object. -/
def payload (_bucket : Bucket) (identity : Uuid) : Session Bytes := do
  require (.notFound identity) (← Session.value? .payload identity.key)

/-- The object of an identity. -/
def fetch (bucket : Bucket) (identity : Uuid) : Session Object := do
  let metadata ← bucket.metadata identity
  let payload ← bucket.payload identity
  let object ← Session.decoded (Object.restore metadata payload)
  bucket.report (.objectFetched identity object.size)
  return object

/-- The identity that a name leads to. The owner may be spelled in any accepted
way. Names over the limit are never stored, so they are not looked up. -/
def resolve (_bucket : Bucket) (name owner : String) : Session Uuid := do
  let owner ← Session.accept (Uuid.normalise Metadata.Key.owner.text owner)
  if Object.nameLimit < name.utf8ByteSize then
    Session.fail (.nameNotFound name owner)
  let key ← require (.nameNotFound name owner) (← Session.value? .name (nameKey name owner))
  Session.decoded (Uuid.ofKey key)

/-- The object of a name. -/
def fetchNamed (bucket : Bucket) (name owner : String) : Session Object := do
  bucket.fetch (← bucket.resolve name owner)

/-- Whether an identity has a metadata record. -/
def contains (_bucket : Bucket) (identity : Uuid) : Session Bool :=
  Session.holds .metadata identity.key

/-- The number of metadata records. -/
def size (_bucket : Bucket) : Session Nat := Session.count .metadata

/-- Whether there are no metadata records. -/
def isEmpty (bucket : Bucket) : Session Bool := return (← bucket.size) = 0

end Depot.Bucket
