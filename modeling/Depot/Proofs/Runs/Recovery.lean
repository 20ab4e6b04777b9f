import Depot.Proofs.Consistency.Recovery
import Depot.Proofs.Reconciliation.Admission
import Depot.Proofs.Runs.Atomic

/-!
# Requests that are cut short

A request to a bucket whose contents are consistent may fail at any of its calls. In the
independent mode that leaves objects half stored or half removed. A reconciliation whose calls
are not refused then makes the request all-or-nothing for each of its objects: those that came
back sealed are stored completely, and of those to be removed some are gone completely, while
everything else is as it was.
-/

namespace Depot

/-- Where no call is refused, a reconciliation succeeds and leaves these contents. -/
def Bucket.Recovers (bucket : Bucket) (store : Store) (contents : Contents) : Prop :=
  ∃ report, (bucket.reconcile.run.run { store with hazard := .none }).1 = .ok report ∧
    (bucket.reconcile.run.run { store with hazard := .none }).2.contents = contents

variable {bucket : Bucket} {before after : Contents} {store : Store}

/-- A reconciliation whose calls are not refused succeeds on an engine that takes names. -/
theorem Contents.Recorded.recovers (recorded : store.contents.Recorded)
    (keyed : store.contents.Keyed) (takes : store.keyRule.TakesNames) :
    bucket.Recovers store (Reconciliation.reconciled store.contents) := by
  have leads := @Reconciliation.leads_reconcile_ok _ _ bucket takes recorded keyed
  obtain ⟨⟨report, done⟩, left⟩ := leads.outcome_of_calm_run
  exact ⟨report, done, left⟩

/-- After new objects are stored up to some point, a reconciliation leaves exactly those that
are stored completely. -/
theorem Contents.Consistent.reconciled_created {objects : List Object} {count : Nat}
    (consistent : before.Consistent) (new : AreNew before objects)
    (created : before.Created bucket objects count after) :
    Reconciliation.reconciled after
      = before.withEntries ((objects.take count).map Object.entry) := by
  rcases created.indexed with ⟨rfl, rfl⟩ | ⟨storable, _, indexed⟩
  · exact consistent.reconciled_eq
  · rw [List.map_take]
    refine consistent.reconciled_indexed (sound_of_storable new.made storable) ?_ ?_ indexed
    · exact List.forall_mem_map.2 fun object member =>
        new.unstored object member (storable object member).unsealed
    · rw [List.map_map]
      exact new.distinct

/-- A reconciliation leaves nothing bound to the empty key. -/
theorem Contents.Keyed.reconciled (keyed : before.Keyed) :
    (Reconciliation.reconciled before).Keyed := by
  have restores := Reconciliation.restores_reconciled before
  intro region
  refine Option.eq_none_iff_forall_ne_some.2 fun value found => ?_
  cases region with
  | payload =>
      have held := ((restores.payloads [] value).1 found).1
      exact absurd ((keyed .payload).symm.trans held) (by simp)
  | metadata =>
      have held := ((restores.records [] value).1 found).1
      exact absurd ((keyed .metadata).symm.trans held) (by simp)
  | name =>
      obtain ⟨claim, _⟩ := (restores.names [] value).1 found
      obtain ⟨_, _, _, name, owner, _, _, _, _, _, _, claimed⟩ := claim
      exact nameKey_ne_nil name owner claimed.symm

/-- No course binds anything to the empty key. -/
theorem Course.keyed {objects : List Object} {count : Nat}
    (course : Course bucket objects before count after) (keyed : before.Keyed) : after.Keyed := by
  cases course with
  | created created => exact keyed.created created
  | removed removals => exact keyed.removals removals
  | repaired => exact keyed.reconciled

/-- What a reconciliation makes of every outcome of a request: the objects that were stored are
there, and of those to be removed some are gone. -/
theorem Outcome.reconciled_eq {request : Request} {count : Nat} (consistent : before.Consistent)
    (new : AreNew before request.objects) (outcome : Outcome bucket before request count after) :
    ∃ gone, gone ⊆ request.targets before ∧
      Reconciliation.reconciled after = (before.withEntries
        ((request.objects.take count).map Object.entry)).except gone := by
  cases outcome with
  | created created =>
      refine ⟨[], by simp, ?_⟩
      rw [Contents.except_nil]
      exact consistent.reconciled_created new created
  | pruned pruned => exact consistent.reconciled_pruned pruned
  | repaired =>
      refine ⟨[], by simp, ?_⟩
      rw [consistent.reconciled_eq, consistent.reconciled_eq, Contents.except_nil]
      rfl

/-- An object that could not be stored is given back as it was handed over. -/
theorem Bucket.serve_create_of_error {object : Object} {error : StoreError}
    (failed : ((bucket.create object).run.run store).1 = .error error) :
    (bucket.serve (.create object)).run store
      = ([object], ((bucket.create object).run.run store).2) := by
  have ran : (bucket.create object).run.run store
      = (.error error, ((bucket.create object).run.run store).2) := Prod.ext failed rfl
  rw [serve, StateT.run_bind, ran]
  rfl

/-- A deletion is undone or completed by a reconciliation. -/
theorem Bucket.Deletes.reconciled_eq {identity : Uuid} {result : Except StoreError Unit}
    (consistent : before.Consistent) (deletes : bucket.Deletes before identity result after) :
    Reconciliation.reconciled after = before ∨
      Reconciliation.reconciled after = before.except [identity] := by
  cases result with
  | ok =>
      obtain ⟨metadata, found, rfl⟩ := deletes
      rw [consistent.except_singleton found]
      exact .inr (consistent.without found).reconciled_eq
  | error error =>
      rcases deletes with rfl | ⟨_, interrupted⟩
      · exact .inl consistent.reconciled_eq
      · exact consistent.reconciled_interrupted interrupted

/-- After a request to consistent contents a reconciliation whose calls are not refused
succeeds. -/
theorem Course.recovers {objects : List Object} {count : Nat} (consistent : before.Consistent)
    (made : AreMade before objects) (takes : store.keyRule.TakesNames)
    (course : Course bucket objects before count store.contents) :
    bucket.Recovers store (Reconciliation.reconciled store.contents) :=
  @Contents.Recorded.recovers bucket store (course.recorded made consistent.recorded)
    (course.keyed consistent.keyed) takes

/-- Whichever calls of a request to consistent contents are refused, a reconciliation leaves the
objects that came back sealed, the first of those handed over, completely stored, and everything
else as it was, except that some of the objects that the request was to remove are gone. So a
creation that fails leaves nothing, and a deletion removes its object completely or not at all. -/
theorem all_or_nothing_of_reconcile (alone : store.hazard.IsAlone)
    (takes : store.keyRule.TakesNames) (consistent : store.contents.Consistent) :
    (∀ request : Request, AreNew store.contents request.objects →
      ∃ stored kept gone, request.objects = stored ++ kept ∧
        ((bucket.serve request).run store).1 = stored.map Object.sealed ++ kept ∧
        gone ⊆ request.targets store.contents ∧
        bucket.Recovers ((bucket.serve request).run store).2
          ((store.contents.withEntries (stored.map Object.entry)).except gone)) ∧
      (∀ object error, AreNew store.contents [object] →
        ((bucket.create object).run.run store).1 = .error error →
          ((bucket.serve (.create object)).run store).1 = [object] ∧
            bucket.Recovers ((bucket.create object).run.run store).2 store.contents) ∧
      ∀ identity,
        bucket.Recovers ((bucket.delete identity).run.run store).2 store.contents ∨
          bucket.Recovers ((bucket.delete identity).run.run store).2
            (store.contents.except [identity]) := by
  have hold := Circumstances.hold_unreliable alone
  refine ⟨fun request new => ?_, fun object error new failed => ?_, fun identity => ?_⟩
  · obtain ⟨holdsAfter, count, outcome, given⟩ := bucket.leads_serve_fulfils request store hold rfl
    have recovers := outcome.course.recovers consistent new.made (holdsAfter.keyRule ▸ takes)
    obtain ⟨gone, within, left⟩ := outcome.reconciled_eq consistent new
    rw [left] at recovers
    exact ⟨_, _, gone, (List.take_append_drop count request.objects).symm, given, within, recovers⟩
  · obtain ⟨holdsAfter, count, created, outcome⟩ :=
      @Bucket.leads_create _ _ bucket object store hold rfl
    rw [failed] at outcome
    obtain rfl := outcome
    have course : Course bucket [object] store.contents 0 _ := .created created
    have recovers := course.recovers consistent new.made (holdsAfter.keyRule ▸ takes)
    rw [consistent.reconciled_created new created] at recovers
    exact ⟨congrArg Prod.fst (Bucket.serve_create_of_error failed), recovers⟩
  · obtain ⟨holdsAfter, deletes⟩ := @Bucket.leads_delete _ _ bucket identity store hold rfl
    have course : Course bucket [] store.contents 0 _ := .removed deletes.pruned.removals
    have recovers := course.recovers consistent (areNew_nil _).made (holdsAfter.keyRule ▸ takes)
    rcases deletes.reconciled_eq consistent with undone | completed
    · exact .inl (undone ▸ recovers)
    · exact .inr (completed ▸ recovers)

/-- The run in which a report is stored already, and storing two objects is refused at the last
commit: the second has its name but no record. -/
theorem all_or_nothing_of_unrecorded_object :
    let store : Store := { contents := ({} : Contents).withEntry Object.report.entry,
                           hazard := .gated [(.commit, 4)] }
    let request := Request.createBatch [Object.summary, Object.notice]
    let after := (Bucket.stepwise.serve request).run store
    after.1 = [Object.summary.sealed, Object.notice] ∧ after.2.contents.sizes = [3, 3, 2] ∧
      ∃ stored kept gone, request.objects = stored ++ kept ∧
        after.1 = stored.map Object.sealed ++ kept ∧ gone ⊆ request.targets store.contents ∧
        Bucket.stepwise.Recovers after.2
          ((store.contents.withEntries (stored.map Object.entry)).except gone) := by
  have storable : Object.report.Storable false := ⟨rfl, by decide +kernel⟩
  have consistent : (({} : Contents).withEntry Object.report.entry).Consistent :=
    Contents.consistent_empty.withEntry (Entry.sound Object.made_report storable) rfl rfl
  refine ⟨by decide +kernel, by decide +kernel, ?_⟩
  refine (@all_or_nothing_of_reconcile Bucket.stepwise
    { contents := ({} : Contents).withEntry Object.report.entry, hazard := .gated [(.commit, 4)] }
    trivial KeyRule.takesNames_unrestricted consistent).1 _ ?_
  refine ⟨?_, by decide +kernel, by decide +kernel⟩
  exact List.forall_mem_cons.2 ⟨Object.made_summary,
    List.forall_mem_singleton.2 Object.made_notice⟩

end Depot
