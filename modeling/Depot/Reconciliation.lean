import Depot.Bucket.Lookup
import Depot.Reconciliation.Report

/-!
# Reconciliation

The three regions are compared and brought back into agreement with one batch.
An identity is live if it has content and a record that names it and its owner;
everything else under an identity is removed. A name stays if it leads to the live
object that claims it, and every other name is removed; then the names that live
objects still lack are written, in key order, unless another one holds them.
-/

namespace Depot.Reconciliation

/-- The name key that a record claims, if it gives a name and an owner. -/
def claim? (metadata : Metadata) : Option Bytes :=
  let name := (metadata.get? Metadata.Key.name.text).getD ""
  let owner := (metadata.get? Metadata.Key.owner.text).getD ""
  if name = "" ∨ owner = "" then none else some (nameKey name owner)

/-- The name key that the record in these bytes claims, if they are a record. -/
def claimOfRecord? (record : Bytes) : Option Bytes :=
  match Metadata.decode record with
  | .error _ => none
  | .ok metadata => claim? metadata

/-- The identities that have content and whose records claim a name, with the
names, in key order. -/
def liveClaims (contents : Contents) : List (Bytes × Bytes) :=
  contents.records.entries.filterMap fun entry =>
    if contents.payloads.contains entry.1 then
      (claimOfRecord? entry.2).map fun key => (entry.1, key)
    else none

/-- The contents that have no record. -/
def orphanedPayloads (contents : Contents) : List Bytes :=
  contents.payloads.keys.filter fun key => !contents.records.contains key

/-- The identities whose records are not live. -/
def orphanedRecords (contents : Contents) (live : List (Bytes × Bytes)) : List Bytes :=
  contents.records.keys.filter fun key => (OrderedMap.lookup key live).isNone

/-- Whether a name leads to the live object that claims it. -/
def isKept (live : List (Bytes × Bytes)) (entry : Bytes × Bytes) : Bool :=
  OrderedMap.lookup entry.2 live = some entry.1

/-- The repair of names: what is written, and which live objects must go without
their name because another one holds it. -/
structure NameRepair where
  /-- Names to write, with the identities they lead to. -/
  restored : List (Bytes × Bytes) := []
  /-- Names, who holds them, and who goes without. -/
  refused : List (Bytes × Bytes × Bytes) := []
deriving DecidableEq

/-- Goes through live identities and their claims, given the names that are held
so far. -/
def repairNames (held : OrderedMap Bytes Bytes) : List (Bytes × Bytes) → NameRepair
  | [] => {}
  | (identity, key) :: rest =>
    match held.get? key with
    | some holder =>
      let repair := repairNames held rest
      if holder = identity then repair
      else { repair with refused := (key, holder, identity) :: repair.refused }
    | none =>
      let repair := repairNames (held.insert key identity) rest
      { repair with restored := (key, identity) :: repair.restored }

/-- All repairs that contents need. -/
structure Plan where
  payloads : List Bytes
  /-- Identities whose records are to be removed, with any content. -/
  records : List Bytes
  dangling : List Bytes
  names : NameRepair
deriving DecidableEq

/-- The repairs that contents need. -/
def plan (contents : Contents) : Plan :=
  let live := liveClaims contents
  let held := contents.names.filter fun key identity => isKept live (key, identity)
  { payloads := orphanedPayloads contents
    records := orphanedRecords contents live
    dangling := (contents.names.entries.filter fun entry => !isKept live entry).map Prod.fst
    names := repairNames held live }

/-- How many repairs of each kind a plan makes. -/
def Plan.report (plan : Plan) : Report where
  orphanedPayloads := plan.payloads.length
  orphanedRecords := plan.records.length
  restoredNames := plan.names.restored.length
  danglingNames := plan.dangling.length

/-- The one batch of a plan. -/
def Plan.batch (plan : Plan) : Batch :=
  ⟨plan.payloads.map (.delete .payload)
    ++ plan.records.flatMap (fun key => [.delete .metadata key, .delete .payload key])
    ++ plan.dangling.map (.delete .name)
    ++ plan.names.restored.map fun entry => .put .name entry.1 entry.2⟩

/-- The events that unreadable records leave. -/
def unreadableRecords (records : List (Bytes × Bytes)) : List Event :=
  records.filterMap fun entry =>
    match Metadata.decode entry.2 with
    | .error cause => some (.recordUndecodable entry.1 cause)
    | .ok _ => none

/-- Reports several events. -/
def emitAll (events : List Event) : Session Unit := events.forM Session.emit

end Reconciliation

/-- The regions of the store as one scan each shows them. Unreadable records are
reported on the way. -/
def Reconciliation.survey : Session Contents := do
  let payloads ← Session.scan .payload fun payloads => return payloads
  let records ← Session.scan .metadata fun records => do
    Reconciliation.emitAll (Reconciliation.unreadableRecords records.entries)
    return records
  let names ← Session.scan .name fun names => return names
  return { payloads, names, records }

/-- Brings the regions of the store back into agreement. -/
def Bucket.reconcile (_bucket : Bucket) : Session Reconciliation.Report := do
  let plan := Reconciliation.plan (← Reconciliation.survey)
  Reconciliation.emitAll (plan.names.refused.map fun (key, holder, identity) =>
    .nameHeld key holder identity)
  unless plan.batch.isEmpty do
    Session.commit plan.batch
  Session.emitIf (!plan.report.isClean) (.repaired plan.report)
  return plan.report

end Depot
