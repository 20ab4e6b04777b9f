import Depot.Batch

/-!
# What may come between a store and its engine

Engine calls can fail, and another writer can get in between two of them. A
hazard is the data of such a course of events: it is asked before every call
whether the call is let through, and after every scan whether another writer's
batch follows. A refused call does nothing.
-/

namespace Depot

/-- A kind of engine call. -/
inductive Call where
  | get
  /-- A value is visited in place. -/
  | readWith
  | scan
  | commit
  | flush
deriving DecidableEq, Repr

/-- The name of a kind of call. -/
def Call.text : Call → String
  | .get => "get"
  | .readWith => "read_with"
  | .scan => "scan"
  | .commit => "commit"
  | .flush => "flush"

/-- A course of events that a store meets. -/
inductive Hazard where
  | none
  /-- Of the commits that touch a region one is refused: the one with which the
  countdown ends. A countdown of zero refuses none. -/
  | faultyCommit (region : Region) (countdown : Nat)
  /-- For some kinds of call, one call is refused after the given number of
  calls of that kind. -/
  | gated (countdowns : List (Call × Nat))
  /-- Another writer's batch is applied right after the next scan of the
  metadata region. -/
  | racing (pending : Option Batch)
  /-- Call by call, whether it is refused; later calls are let through. -/
  | scripted (refusals : List Bool)
deriving DecidableEq, Repr, Inhabited

namespace Hazard

/-- The reason given for a refusal that no gate is to blame for. -/
def injected : StoreError := .engine "injected failure"

/-- Counts a call down at the gates: whether it is let through, and the gates
after it. -/
def passGates (call : Call) : List (Call × Nat) → Bool × List (Call × Nat)
  | [] => (true, [])
  | (kind, countdown) :: rest =>
    if kind = call then
      match countdown with
      | 0 => (false, rest)
      | countdown + 1 => (true, (kind, countdown) :: rest)
    else
      let (passes, after) := passGates call rest
      (passes, (kind, countdown) :: after)

/-- Whether a call with this batch is let through, and the hazard after it. Calls
other than commits come with the empty batch. -/
def meet (hazard : Hazard) (call : Call) (batch : Batch) : Except StoreError Unit × Hazard :=
  match hazard with
  | .none => (.ok (), .none)
  | .faultyCommit region countdown =>
    if batch.touches region then
      match countdown with
      | 0 => (.ok (), hazard)
      | 1 => (.error injected, .faultyCommit region 0)
      | countdown + 2 => (.ok (), .faultyCommit region (countdown + 1))
    else (.ok (), hazard)
  | .gated countdowns =>
    let (passes, after) := passGates call countdowns
    (if passes then .ok () else .error (.engine ("injected " ++ call.text)), .gated after)
  | .racing pending => (.ok (), .racing pending)
  | .scripted [] => (.ok (), .scripted [])
  | .scripted (refused :: rest) =>
    (if refused then .error injected else .ok (), .scripted rest)

/-- The batch that follows a completed scan of a region, and the hazard after
it. -/
def afterScan (hazard : Hazard) (region : Region) : Batch × Hazard :=
  match hazard with
  | .racing (some batch) =>
    if region = .metadata then (batch, .racing Option.none) else (.empty, hazard)
  | _ => (.empty, hazard)

/-- Sets a gate that refuses one call of a kind after `countdown` calls of it.
An earlier gate for the kind is given up. -/
def setGate (hazard : Hazard) (call : Call) (countdown : Nat) : Hazard :=
  match hazard with
  | .gated countdowns => .gated ((call, countdown) :: countdowns.filter fun gate => gate.1 ≠ call)
  | other => other

/-- Lets another writer's batch follow the next scan of the metadata region. -/
def setRace (hazard : Hazard) (batch : Batch) : Hazard :=
  match hazard with
  | .racing _ => .racing (some batch)
  | other => other

end Hazard

end Depot
