import Depot.Proofs.Consistency.Repair
import Depot.Proofs.Runs

/-!
# Runs in the atomic mode

In the atomic mode contents are consistent throughout every run in which no identity is
stored a second time while it is stored, whatever calls are refused. So there is never
anything to reconcile. Runs that store an identity again, as a copy of an object allows,
are not the subject of this module.
-/

namespace Depot

/-- No identity of an unsealed one of the objects is stored, and no two of the objects have
the same identity. Sealed ones are refused in any case. -/
structure AreNew (contents : Contents) (objects : List Object) : Prop where
  made : AreMade contents objects
  unstored : ∀ object ∈ objects, object.isSealed = false →
    contents.records.get? object.identity.key = none
  distinct : (objects.map Object.identity).Nodup

theorem areNew_nil (contents : Contents) : AreNew contents [] :=
  ⟨fun _ member => absurd member List.not_mem_nil, by simp, .nil⟩

namespace Contents

variable {bucket : Bucket} {before after : Contents}

/-- A deletion in the atomic mode keeps contents consistent. -/
theorem Consistent.removal {identity : Uuid} (consistent : before.Consistent)
    (removal : before.Removal .atomic identity after) : after.Consistent := by
  cases removal with
  | halfway interrupted => cases interrupted <;> contradiction
  | whole found => exact consistent.without found

/-- Any number of deletions in the atomic mode keeps contents consistent. -/
theorem Consistent.removals (consistent : before.Consistent)
    (removals : before.Removals .atomic after) : after.Consistent := by
  induction removals with
  | refl => exact consistent
  | tail _ removal inductionHypothesis =>
      obtain ⟨_, removal⟩ := removal
      exact inductionHypothesis.removal removal

/-- Storing new objects in the atomic mode keeps contents consistent. -/
theorem Consistent.created {objects : List Object} {count : Nat} (consistent : before.Consistent)
    (atomic : bucket.settings.writeMode = .atomic) (new : AreNew before objects)
    (created : before.Created bucket objects count after) : after.Consistent := by
  cases created with
  | refused => exact consistent
  | written storable distinct written =>
      cases written with
      | nothing => exact consistent
      | apart independent => exact absurd (atomic.symm.trans independent) (by simp)
      | together _ admits =>
          refine consistent.withEntries (sound_of_storable new.made storable) admits ?_ ?_
          · exact List.forall_mem_map.2 fun object member =>
              new.unstored object member (storable object member).unsealed
          · rw [List.map_map]
            exact new.distinct

end Contents

variable {bucket : Bucket} {before after : Contents} {start store : Store}

/-- Every course of a request with new objects keeps contents consistent. -/
theorem Course.consistent {objects : List Object} {count : Nat}
    (atomic : bucket.settings.writeMode = .atomic) (new : AreNew before objects)
    (course : Course bucket objects before count after) (consistent : before.Consistent) :
    after.Consistent := by
  cases course with
  | created created => exact consistent.created atomic new created
  | removed removals =>
      rw [atomic] at removals
      exact consistent.removals removals
  | repaired =>
      rw [consistent.reconciled_eq]
      exact consistent

/-- Where no call is refused, reconciling consistent contents finds nothing to repair. -/
theorem Contents.Consistent.leads_reconcile {keyRule : KeyRule} (consistent : before.Consistent) :
    Leads (.reliable keyRule) bucket.reconcile.run before fun result after =>
      result = .ok {} ∧ after = before := by
  refine Reconciliation.leads_reconcile.mono fun result after ends => ?_
  cases result with
  | ok report =>
      refine ⟨?_, ends.1.trans consistent.reconciled_eq⟩
      rw [ends.2, consistent.plan_eq]
      rfl
  | error error =>
      rcases ends.2 with may | failure
      · exact may.elim
      · rw [consistent.plan_eq] at failure
        exact absurd failure (by simp [Reconciliation.Plan.batch, Contents.commit])

/-- A run in the atomic mode that starts empty and stores only new objects keeps contents
consistent, so that a name and an owner belong to one object at most and a reconciliation
without refused calls reports that there was nothing to do and does nothing. -/
theorem consistent_of_atomic_run (atomic : bucket.settings.writeMode = .atomic)
    (alone : start.hazard.IsAlone) (empty : start.contents = {})
    (served : Served bucket AreNew start store) :
    store.contents.Consistent ∧ store.contents.Unshared ∧
      (bucket.reconcile.run.run { store with hazard := .none }).1 = .ok {} ∧
      (bucket.reconcile.run.run { store with hazard := .none }).2.contents = store.contents := by
  have consistent : store.contents.Consistent :=
    (served.invariant alone (empty ▸ Contents.consistent_empty) fun new course =>
      course.consistent atomic new).2
  have hold : (Circumstances.reliable store.keyRule).Hold { store with hazard := .none } :=
    ⟨rfl, trivial, fun _ => rfl⟩
  obtain ⟨_, reported, kept⟩ :=
    @Contents.Consistent.leads_reconcile bucket _ _ consistent _ hold rfl
  exact ⟨consistent, consistent.unshared, reported, kept⟩

/-- The run in which a report is stored and its deletion is refused. -/
theorem consistent_of_refused_deletion :
    let bucket : Bucket := ⟨{ writeMode := .atomic }, none⟩
    let start : Store := { hazard := .gated [(.commit, 1)] }
    let stored := ((bucket.serve (.create Object.report)).run start).2
    let left := ((bucket.serve (.delete Object.report.identity)).run stored).2
    left.contents.sizes = [1, 1, 1] ∧ left.contents.Consistent ∧ left.contents.Unshared ∧
      (bucket.reconcile.run.run { left with hazard := .none }).1 = .ok {} ∧
      (bucket.reconcile.run.run { left with hazard := .none }).2.contents = left.contents := by
  refine ⟨by decide +kernel, ?_⟩
  refine @consistent_of_atomic_run _ { hazard := .gated [(.commit, 1)] } _ rfl trivial rfl ?_
  refine .serve (.serve .start (.create Object.report) ?_) (.delete Object.report.identity) ?_
  · exact ⟨List.forall_mem_singleton.2 Object.made_report, fun _ _ _ => rfl,
      List.nodup_singleton _⟩
  · exact areNew_nil _

end Depot
