import Depot.OrderedMap
import Depot.Text.Utf8

/-!
# Name locks

Operations on the same name exclude each other by locks. A name key is assigned
one of a fixed number of locks, its stripe, by a hash; different keys may share
one. Several keys are locked by locking their stripes once each in ascending
order, so no two operations can wait for each other in a circle.
-/

namespace Depot

/-- A fixed number of locks and the hash that spreads keys over them. -/
structure NameLocks where
  stripes : Nat := 64
  hash : Bytes → Nat
  stripes_pos : 0 < stripes := by decide

namespace NameLocks

/-- The lock of a key. -/
def stripe (locks : NameLocks) (key : Bytes) : Nat := locks.hash key % locks.stripes

/-- The locks taken for several keys, in the order in which they are taken. -/
def acquisition (locks : NameLocks) (keys : List Bytes) : List Nat :=
  (OrderedMap.ofList (keys.map fun key => (locks.stripe key, ()))).keys

end NameLocks

end Depot
