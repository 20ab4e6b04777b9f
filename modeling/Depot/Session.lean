import Depot.Event
import Depot.Hazard

/-!
# Sessions with a store

A store is what its regions hold, the rule of its engine for keys, the hazard it
meets, and the events reported so far. A session is a sequence of engine calls on
it that may fail on the way; what was done before the failure stays done.
-/

namespace Depot

/-- A store and its surroundings. -/
structure Store where
  contents : Contents := {}
  keyRule : KeyRule := .unrestricted
  hazard : Hazard := .none
  /-- The events reported so far, oldest first. -/
  events : List Event := []
deriving DecidableEq, Inhabited

/-- Work on a store that may fail and leaves the store to be seen either way. -/
abbrev Session (α : Type) := ExceptT StoreError (StateM Store) α

namespace Session

variable {α : Type}

/-- Reports an event. -/
def emit (event : Event) : Session Unit :=
  modify fun store => { store with events := store.events ++ [event] }

/-- Reports an event if `wanted`. -/
def emitIf (wanted : Bool) (event : Event) : Session Unit :=
  if wanted then emit event else pure ()

/-- Fails with `error`. -/
def fail (error : StoreError) : Session α := throw error

/-- Takes a result or fails as it does. -/
def ofExcept (result : Except StoreError α) : Session α := ExceptT.mk (pure result)

/-- Takes the result of a check of what was handed over. -/
def accept (result : Except DataError α) : Session α := ofExcept (result.mapError .invalid)

/-- Takes the result of reading what is stored. -/
def decoded (result : Except DataError α) : Session α := ofExcept (result.mapError .undecodable)

/-- The outcome of a session, failure included, as a result. -/
def attempt (session : Session α) : Session (Except StoreError α) :=
  ExceptT.mk (Except.ok <$> session.run)

/-- Lets a call meet the hazard of the store. -/
def call (kind : Call) (batch : Batch) : Session Unit := do
  let (verdict, hazard) := (← get).hazard.meet kind batch
  modify fun store => { store with hazard }
  ofExcept verdict

/-- Looks a key up in the store as it stands. -/
def look (region : Region) (key : Bytes) : Session (Option Bytes) := do
  let store ← get
  if store.keyRule.admitsLookup key then return store.contents.get? region key
  else fail KeyRule.refusal

/-- Applies a batch to the store as it stands. -/
def apply (batch : Batch) : Session Unit := do
  let store ← get
  let (outcome, contents) := store.contents.transact store.keyRule batch
  set { store with contents }
  ofExcept outcome

/-- Copies the value of a key out of the engine. -/
def value? (region : Region) (key : Bytes) : Session (Option Bytes) := do
  call .get .empty
  look region key

/-- Whether a key has a value. -/
def holds (region : Region) (key : Bytes) : Session Bool := return (← value? region key).isSome

/-- Shows the value of a key in place, inside the engine. -/
def view? (region : Region) (key : Bytes) : Session (Option Bytes) := do
  call .readWith .empty
  look region key

/-- Visits a region as it stands at the start; a failing `visit` ends the scan.
Another writer's batch may follow a completed scan. -/
def scan (region : Region) (visit : OrderedMap Bytes Bytes → Session α) : Session α := do
  call .scan .empty
  let result ← visit ((← get).contents.region region)
  let (batch, hazard) := (← get).hazard.afterScan region
  modify fun store => { store with hazard }
  apply batch
  return result

/-- The number of entries of a region. -/
def count (region : Region) : Session Nat := scan region fun entries => return entries.size

/-- Commits a batch. -/
def commit (batch : Batch) : Session Unit := do
  call .commit batch
  apply batch

/-- Makes buffered writes durable. -/
def flush : Session Unit := call .flush .empty

end Session

end Depot
