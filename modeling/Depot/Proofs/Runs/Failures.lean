import Depot.Proofs.Consistency.Legibility
import Depot.Proofs.Runs.Modes

/-!
# No run makes a bucket fail internally

Three requests write: one stores an object, one stores several, and one reconciles the regions.
Whatever they leave half-done, and whatever objects they are given, contents that were legible
stay so. So in a run that starts from empty regions nothing that is stored is ever found to be
unreadable, and no key that should be new is reported to be taken: it is the name of an object,
and the failure says so.
-/

namespace Depot

/-- Every course keeps contents legible. -/
theorem Course.legible {bucket : Bucket} {before after : Contents} {objects : List Object}
    {count : Nat} (made : AreMade before objects)
    (course : Course bucket objects before count after) (legible : before.Legible) :
    after.Legible where
  recorded := course.recorded made legible.recorded
  named := course.allNames made legible.named (fun entry _ => ⟨entry.identity, rfl⟩)
    legible.recorded.named_reconciled

/-- A reply tells no internal failure. -/
def Reply.IsAccountable : Reply → Prop
  | .created result => Accountable result
  | .batchCreated creation => Accountable creation.result
  | .metadata result => Accountable result
  | .payload result => Accountable result
  | .object result => Accountable result
  | .truth result => Accountable result
  | .number result => Accountable result
  | .delivered delivery => Accountable delivery.result
  | .answered result => Accountable result
  | .objects result => Accountable result
  | .done result => Accountable result
  | .report result => Accountable result

namespace Bucket

variable {circumstances : Circumstances} {before : Contents} {bucket : Bucket}

/-- A reply is accountable if what it tells is. -/
theorem accountable_map {α : Type} {work : StateM Store α} {tell : α → Reply} {holds : α → Prop}
    (leads : Leads circumstances work before fun value _ => holds value)
    (told : ∀ value, holds value → (tell value).IsAccountable) :
    Leads circumstances (tell <$> work) before fun reply _ => reply.IsAccountable := by
  rw [← bind_pure_comp]
  exact Leads.bind leads fun value _ held => Leads.pure (told value held)

/-- Where everything stored can be read, every request is replied to accountably. -/
theorem accountable_reply (legible : before.Legible) (request : Request) :
    Leads circumstances (bucket.reply request) before fun reply _ => reply.IsAccountable := by
  have recorded := legible.recorded
  cases request with
  | create object => exact accountable_map (accountable_create object) fun _ => id
  | createBatch objects => exact accountable_map (accountable_createBatch objects) fun _ => id
  | metadata identity =>
      exact accountable_map (accountable_look (leads_metadata identity)
        (recorded.accountable_metadataOf identity)) fun _ => id
  | payload identity =>
      exact accountable_map (accountable_look (leads_payload identity)
        (before.accountable_payloadOf identity)) fun _ => id
  | fetch identity =>
      exact accountable_map (accountable_look (leads_fetch identity)
        (recorded.accountable_objectOf identity)) fun _ => id
  | fetchNamed name owner =>
      exact accountable_map (accountable_look (leads_fetchNamed name owner)
        (legible.accountable_objectNamed name owner)) fun _ => id
  | contains identity =>
      exact accountable_map (accountable_look (leads_contains identity) trivial) fun _ => id
  | size => exact accountable_map (accountable_look leads_size trivial) fun _ => id
  | isEmpty => exact accountable_map (accountable_look leads_isEmpty trivial) fun _ => id
  | stream identity sink =>
      exact accountable_map (accountable_stream recorded identity sink) fun _ => id
  | run selection => exact accountable_map (accountable_run recorded selection) fun _ => id
  | fetchSelected selection =>
      exact accountable_map (accountable_look (leads_fetchSelected selection)
        (recorded.accountable_objectsSelected selection)) fun _ => id
  | deleteSelected selection =>
      exact accountable_map (accountable_deleteSelected recorded selection) fun _ => id
  | delete identity => exact accountable_map (accountable_delete recorded identity) fun _ => id
  | deleteNamed name owner =>
      exact accountable_map (accountable_deleteNamed legible name owner) fun _ => id
  | flush => exact accountable_map (Leads.flush (fun _ _ => id) trivial) fun _ => id
  | reconcile => exact accountable_map accountable_reconcile fun _ => id

theorem accountable_shutdown :
    Leads circumstances bucket.shutdown.run before fun result _ => Accountable result := by
  refine Leads.thenAccountable (Leads.emitIf trivial) fun _ _ => ?_
  refine Leads.thenAccountable (Leads.flush (fun _ _ => id) trivial) fun _ _ => ?_
  exact Leads.emit trivial

/-- A bucket fails on a store only for what it is asked or for the engine, and finds whatever it
looks up readable. -/
structure FailsAccountably (bucket : Bucket) (store : Store) : Prop where
  records : ∀ key record, store.contents.records.get? key = some record →
    ∃ identity metadata, Uuid.ofKey key = .ok identity ∧ Metadata.decode record = .ok metadata ∧
      ∀ payload, ∃ object, Object.restore metadata payload = .ok object
  names : ∀ key value, store.contents.names.get? key = some value →
    ∃ identity, Uuid.ofKey value = .ok identity
  replies : ∀ request, ((bucket.reply request).run store).1.IsAccountable
  shutdown : Accountable (bucket.shutdown.run.run store).1
  /-- If a commit is refused for a key that must be new, this is the name of an object, and the
  failure is told as its conflict. -/
  conflicts : ∀ entries batch region key, Entry.Inserts entries batch →
    ((Session.commit batch).run.run store).1 = .error (.keyTaken region key) →
      region = .name ∧ ∃ entry ∈ entries, entry.nameKey = key ∧
        ((commitEntries entries batch).run.run store).1 = .error entry.conflict

end Bucket

/-- In a run from empty regions, in either mode, over any objects that can be made and with any
calls refused on the way, a bucket never fails internally. -/
theorem fails_accountably_throughout_run {bucket : Bucket} {start store : Store}
    (alone : start.hazard.IsAlone) (empty : start.contents = {})
    (served : Served bucket AreMade start store) : bucket.FailsAccountably store := by
  obtain ⟨aloneNow, legible⟩ :=
    served.invariant alone (empty ▸ Contents.legible_empty) Course.legible
  refine ⟨fun _ _ found => legible.recorded.readable found, fun key value found => ?_,
    fun request => ?_, ?_, fun _ _ _ _ inserts taken =>
      Bucket.conflict_of_keyTaken aloneNow inserts taken⟩
  · obtain ⟨identity, rfl⟩ := legible.named key value found
    exact ⟨identity, identity.ofKey_key⟩
  · exact (Bucket.accountable_reply legible request).outcome_of_run aloneNow rfl
  · exact Bucket.accountable_shutdown.outcome_of_run aloneNow rfl

/-- The run in which a report gets its content and its name but no record, and a reconciliation is
refused. Another report is then told of the name, which leads to nothing. -/
theorem fails_accountably_after_unrecorded_report :
    let start : Store := { hazard := .gated [(.commit, 2), (.scan, 1)] }
    let named := ((Bucket.stepwise.serve (.create Object.report)).run start).2
    let kept := ((Bucket.stepwise.serve .reconcile).run named).2
    let entry := Object.secondReport.entry
    kept.contents.sizes = [1, 1, 0] ∧
      ((Bucket.stepwise.create Object.secondReport).run.run kept).1 = .error entry.conflict ∧
      ((Session.commit entry.nameWrite).run.run kept).1 = .error (.keyTaken .name entry.nameKey) ∧
      Bucket.stepwise.FailsAccountably kept := by
  refine ⟨by decide +kernel, by decide +kernel, by decide +kernel, ?_⟩
  refine @fails_accountably_throughout_run _ { hazard := .gated [(.commit, 2), (.scan, 1)] } _
    trivial rfl ?_
  exact (Served.serve .start (.create Object.report)
    (List.forall_mem_singleton.2 Object.made_report)).serve .reconcile
      fun _ member => absurd member List.not_mem_nil

end Depot
