import Depot.StoreError

/-!
# Batches of writes

Single writes, batches that take effect as a whole or not at all, and the rules
by which engines refuse keys. A batch is applied write by write, so a later write
sees the earlier ones. An engine writes in place and keeps a log of what it replaces,
by which it goes back when a write is refused.
-/

namespace Depot

/-- A change of one key. -/
inductive Write where
  | put (region : Region) (key value : Bytes)
  /-- Binds a key that must have no value. -/
  | putNew (region : Region) (key value : Bytes)
  | delete (region : Region) (key : Bytes)
deriving DecidableEq, Repr

/-- The region of a write. -/
def Write.region : Write → Region
  | .put region _ _ | .putNew region _ _ | .delete region _ => region

/-- Writes that take effect together, in this order. -/
structure Batch where
  writes : List Write := []
deriving DecidableEq, Repr, Inhabited

namespace Batch

/-- The batch without writes. -/
def empty : Batch := ⟨[]⟩

/-- Adds a binding. -/
def put (batch : Batch) (region : Region) (key value : Bytes) : Batch :=
  ⟨batch.writes ++ [.put region key value]⟩

/-- Adds a binding of a new key. -/
def putNew (batch : Batch) (region : Region) (key value : Bytes) : Batch :=
  ⟨batch.writes ++ [.putNew region key value]⟩

/-- Adds a removal. -/
def delete (batch : Batch) (region : Region) (key : Bytes) : Batch :=
  ⟨batch.writes ++ [.delete region key]⟩

/-- Adds the writes of another batch. -/
def extend (batch other : Batch) : Batch := ⟨batch.writes ++ other.writes⟩

/-- The writes of several batches, one batch after the other. -/
def join (batches : List Batch) : Batch := batches.foldl extend empty

/-- The number of writes. -/
def size (batch : Batch) : Nat := batch.writes.length

/-- Whether there are no writes. -/
def isEmpty (batch : Batch) : Bool := batch.writes.isEmpty

/-- Whether some write changes the region. -/
def touches (batch : Batch) (region : Region) : Bool :=
  batch.writes.any fun write => write.region = region

end Batch

/-- Which keys an engine refuses. -/
structure KeyRule where
  refusesEmpty : Bool
  /-- The longest key that may be bound, if there is a limit. -/
  longest : Option Nat
deriving DecidableEq, Repr

namespace KeyRule

/-- Every key is accepted, as by an engine in memory. -/
def unrestricted : KeyRule := ⟨false, none⟩

/-- Keys of 1 to 511 bytes may be bound, as by an engine on disk. -/
def pageBound : KeyRule := ⟨true, some 511⟩

instance : Inhabited KeyRule := ⟨unrestricted⟩

/-- How a refused key is reported. -/
def refusal : StoreError :=
  .engine "MDB_BAD_VALSIZE: Unsupported size of key/DB name/data, or wrong DUPFIXED size"

/-- Whether a key may be looked up or removed. An over-long one may: it is
simply not there. -/
def admitsLookup (rule : KeyRule) (key : Bytes) : Bool := !(rule.refusesEmpty && key.isEmpty)

/-- Whether a key may be bound. -/
def admitsBinding (rule : KeyRule) (key : Bytes) : Bool :=
  rule.admitsLookup key && rule.longest.all fun limit => key.length ≤ limit

end KeyRule

namespace Contents

/-- The contents after one write, or why it is refused. -/
def apply (rule : KeyRule) (contents : Contents) (write : Write) : Except StoreError Contents :=
  match write with
  | .put region key value =>
    if rule.admitsBinding key then .ok (contents.update region (·.insert key value))
    else .error KeyRule.refusal
  | .putNew region key value =>
    if rule.admitsBinding key then
      if (contents.get? region key).isSome then .error (.keyTaken region key)
      else .ok (contents.update region (·.insert key value))
    else .error KeyRule.refusal
  | .delete region key =>
    if rule.admitsLookup key then .ok (contents.update region (·.erase key))
    else .error KeyRule.refusal

/-- The contents after all writes of a list, or why the first refused one is
refused. -/
def applyAll (rule : KeyRule) (contents : Contents) : List Write → Except StoreError Contents
  | [] => .ok contents
  | write :: rest =>
    match contents.apply rule write with
    | .error error => .error error
    | .ok next => next.applyAll rule rest

/-- The contents after a batch, or why the batch is refused as a whole. -/
def commit (rule : KeyRule) (contents : Contents) (batch : Batch) : Except StoreError Contents :=
  contents.applyAll rule batch.writes

end Contents

/-- What a key held before a write. -/
structure Former where
  region : Region
  key : Bytes
  value : Option Bytes
deriving DecidableEq, Repr

namespace Contents

/-- What a write replaces. A key that must be new has no value before. -/
def former (contents : Contents) : Write → Former
  | .put region key _ | .delete region key => ⟨region, key, contents.get? region key⟩
  | .putNew region key _ => ⟨region, key, none⟩

/-- Gives a key back what it held. -/
def restore (contents : Contents) (former : Former) : Contents :=
  match former.value with
  | some value => contents.update former.region (·.insert former.key value)
  | none => contents.update former.region (·.erase former.key)

/-- Goes back through a log, in which the last write stands first. -/
def undo (contents : Contents) (log : List Former) : Contents := log.foldl restore contents

/-- Does writes in place and logs what they replace: the outcome, and the contents
afterwards. A write that is refused makes all of them undone, with those that the log
holds already. -/
def perform (rule : KeyRule) (log : List Former) (contents : Contents) :
    List Write → Except StoreError Unit × Contents
  | [] => (.ok (), contents)
  | write :: rest =>
    match contents.apply rule write with
    | .error error => (.error error, contents.undo log)
    | .ok next => next.perform rule (contents.former write :: log) rest

/-- Commits a batch in place: the outcome, and the contents afterwards. -/
def transact (rule : KeyRule) (contents : Contents) (batch : Batch) :
    Except StoreError Unit × Contents :=
  contents.perform rule [] batch.writes

end Contents

end Depot
