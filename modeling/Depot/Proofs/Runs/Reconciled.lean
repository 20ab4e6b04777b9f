import Depot.Proofs.Reconciliation.Warnings
import Depot.Proofs.Runs

/-!
# Reconciling after a run

Whatever calls were refused in a run, in either mode, a reconciliation that succeeds
settles the contents. The regions agree completely exactly if no two complete objects
shared a name and an owner. Two objects come to do so when one is deleted half-way, so
that its name is free again, and the other is stored under this name. A reconciliation
keeps both: content is not removed for the sake of a name. It gives the name to one of them
and warns of the other.
-/

namespace Depot

/-- No object's name and owner are those of another object that is stored. -/
structure AreUnclaimed (contents : Contents) (objects : List Object) : Prop where
  made : AreMade contents objects
  unclaimed : ∀ object ∈ objects, ∀ identity name owner, contents.Stores identity name owner →
    name = object.name → owner.toText = object.owner → identity = object.identity

variable {bucket : Bucket} {before after : Contents} {start store : Store} {objects : List Object}
  {count : Nat}

/-- Every course of a request whose objects are unclaimed lets no two stored objects share
a name and an owner. -/
theorem Course.unshared (new : AreUnclaimed before objects)
    (course : Course bucket objects before count after) (unshared : before.Unshared) :
    after.Unshared := by
  rcases course.within_or_indexed with within | ⟨storable, distinct, indexed⟩
  · exact unshared.within within
  · have sound := sound_of_storable new.made storable
    have within := Contents.recordsWithin_withPayloads before (objects.map Object.entry)
    refine (unshared.within within).indexed sound distinct ?_ indexed
    refine List.forall_mem_map.2 fun object member identity name owner stored claims => ?_
    obtain ⟨entryOwner, canonical, _⟩ := sound _ (List.mem_map_of_mem member)
    rw [Entry.nameKey, canonical] at claims
    obtain ⟨sameName, sameOwner⟩ := nameKey_injective claims
    exact new.unclaimed object member identity name owner (stored.within within) sameName
      (sameOwner ▸ canonical.symm)

/-- What a reconciliation achieves that comes to its end. The contents are settled. Complete
objects, and they alone, are stored, with the content and the record that they had, and who had
the name keeps it. Of complete objects that share a name and an owner, those are warned of that
go without the name. -/
structure Store.Repaired (before after : Store) : Prop where
  settled : after.contents.Settled
  stores_iff : ∀ identity name owner,
    after.contents.Stores identity name owner ↔ before.contents.Completes identity name owner
  kept : ∀ identity name owner, before.contents.Completes identity name owner →
    after.contents.payloads.get? identity.key = before.contents.payloads.get? identity.key ∧
      after.contents.records.get? identity.key = before.contents.records.get? identity.key
  held : ∀ identity name owner, before.contents.Completes identity name owner →
    before.contents.names.get? (nameKey name owner.toText) = some identity.key →
      after.contents.names.get? (nameKey name owner.toText) = some identity.key
  warned : ∃ events, after.events = before.events ++ events ∧ ∀ key holder loser,
    .nameHeld key holder loser ∈ events ↔ ∃ first second name owner,
      before.contents.Completes first name owner ∧ before.contents.Completes second name owner ∧
        first ≠ second ∧ after.contents.names.get? key = some holder ∧
          nameKey name owner.toText = key ∧ first.key = holder ∧ second.key = loser

/-- Complete objects are live. -/
theorem Contents.Recorded.claims_iff_completes {contents : Contents}
    (recorded : contents.Recorded) {key claim : Bytes} :
    Reconciliation.Claims contents key claim ↔ ∃ identity name owner,
      contents.Completes identity name owner ∧ identity.key = key ∧
        nameKey name owner.toText = claim :=
  Reconciliation.claims_iff.trans recorded.claimed?_eq_some_iff

/-- Who is warned of where all records are those of stored objects. -/
theorem Contents.Recorded.nameHeld_mem_told_iff {contents : Contents}
    (recorded : contents.Recorded) {key holder loser : Bytes} :
    .nameHeld key holder loser ∈ Reconciliation.told contents ↔ ∃ first second name owner,
      contents.Completes first name owner ∧ contents.Completes second name owner ∧
        first ≠ second ∧ (Reconciliation.reconciled contents).names.get? key = some holder ∧
          nameKey name owner.toText = key ∧ first.key = holder ∧ second.key = loser := by
  rw [Reconciliation.nameHeld_mem_told_iff, recorded.claims_iff_completes]
  constructor
  · rintro ⟨⟨second, name, owner, complete, rfl, rfl⟩, found, apart⟩
    obtain ⟨first, otherName, otherOwner, alsoComplete, claim, rfl⟩ :=
      recorded.completes_of_get?_reconciled found
    obtain ⟨rfl, rfl⟩ := nameKey_injective claim
    exact ⟨first, second, otherName, otherOwner, alsoComplete, complete,
      fun same => apart (congrArg Uuid.key same), found, rfl, rfl, rfl⟩
  · rintro ⟨first, second, name, owner, _, complete, apart, found, rfl, rfl, rfl⟩
    exact ⟨⟨second, name, owner, complete, rfl, rfl⟩, found,
      fun same => apart (Uuid.key_injective same)⟩

/-- A reconciliation that comes to its end repairs a store whose records are all those of stored
objects. -/
theorem Contents.Recorded.repaired {before after : Store} {report : Reconciliation.Report}
    (recorded : before.contents.Recorded) (alone : before.hazard.IsAlone)
    (run : bucket.reconcile.run.run before = (.ok report, after)) : before.Repaired after := by
  obtain ⟨_, left, told, _⟩ := Reconciliation.tells_reconcile before after report alone rfl run
  have restores := Reconciliation.restores_reconciled before.contents
  rw [← left] at restores
  have live : ∀ {identity name owner}, before.contents.Completes identity name owner →
      Reconciliation.Claims before.contents identity.key (nameKey name owner.toText) :=
    fun complete => recorded.claims_iff_completes.2 ⟨_, _, _, complete, rfl, rfl⟩
  refine {
    settled := left ▸ recorded.settled
    stores_iff := fun identity name owner => ?_
    kept := fun identity name owner complete => ⟨?_, ?_⟩
    held := fun identity name owner complete held => ?_
    warned := ⟨_, told, fun key holder loser => ?_⟩ }
  · rw [left]
    exact recorded.stores_reconciled_iff
  · refine Option.ext fun payload => (restores.payloads _ _).trans (and_iff_left ?_)
    exact ⟨_, live complete⟩
  · refine Option.ext fun record => (restores.records _ _).trans (and_iff_left ?_)
    exact ⟨_, live complete⟩
  · exact (restores.names _ _).2 ⟨live complete, .inl held⟩
  · rw [left]
    exact recorded.nameHeld_mem_told_iff

/-- After a run from empty contents, a reconciliation that succeeds repairs the store. Its
contents are consistent exactly if no two complete objects shared a name and an owner, as they
do not if every object was stored under a name that no other stored object had. -/
theorem settled_of_reconciled_run (alone : start.hazard.IsAlone) (empty : start.contents = {})
    (served : Served bucket AreMade start store) {report : Reconciliation.Report} {after : Store}
    (done : bucket.reconcile.run.run store = (.ok report, after)) :
    store.Repaired after ∧
      (after.contents.Consistent ↔
        ∀ identity other name owner, store.contents.Completes identity name owner →
          store.contents.Completes other name owner → identity = other) ∧
      (Served bucket AreUnclaimed start store → after.contents.Consistent) := by
  have initially : start.contents.Consistent := empty ▸ Contents.consistent_empty
  obtain ⟨aloneNow, recorded⟩ := served.invariant alone initially.recorded Course.recorded
  have repaired := recorded.repaired aloneNow done
  have reconciled : after.contents = Reconciliation.reconciled store.contents :=
    (Reconciliation.tells_reconcile store after report aloneNow rfl done).2.1
  have consistent_iff := recorded.consistent_reconciled_iff
  rw [← reconciled] at consistent_iff
  refine ⟨repaired, consistent_iff, fun unclaimed => ?_⟩
  obtain ⟨_, unshared⟩ := unclaimed.invariant alone initially.unshared Course.unshared
  exact consistent_iff.2 fun identity other name owner complete alsoComplete =>
    unshared identity other name owner complete.1 alsoComplete.1

/-- The store in which a report was stored and deleted up to its name. -/
def Store.unnamed : Store :=
  let stored := ((Bucket.stepwise.serve (.create Object.report)).run {}).2
  ((Bucket.stepwise.serve (.delete Object.report.identity)).run
    { stored with hazard := .gated [(.commit, 1)] }).2

/-- The store in which another report was stored under the name that had become free. -/
def Store.shared : Store :=
  ((Bucket.stepwise.serve (.create Object.secondReport)).run Store.unnamed).2

theorem served_shared : Served Bucket.stepwise AreMade {} Store.shared := by
  have stored := @Served.serve Bucket.stepwise AreMade {} {} .start (.create Object.report)
    (List.forall_mem_singleton.2 Object.made_report)
  have unnamed := (stored.arrange (.gated [(.commit, 1)]) trivial).serve
    (.delete Object.report.identity) fun _ member => absurd member List.not_mem_nil
  exact unnamed.serve (.create Object.secondReport)
    (List.forall_mem_singleton.2 Object.made_secondReport)

/-- Of the two reports, the one that was stored last has the name, and the other is warned of,
although there is nothing to repair. -/
theorem settled_of_shared_report :
    let after := (Bucket.stepwise.reconcile.run.run Store.shared).2
    (Bucket.stepwise.reconcile.run.run Store.shared).1 = .ok {} ∧
      .nameHeld Object.report.entry.nameKey Object.secondReport.identity.key
        Object.report.identity.key ∈ after.events ∧
      Store.shared.Repaired after ∧
      (after.contents.Consistent ↔
        ∀ identity other name owner, Store.shared.contents.Completes identity name owner →
          Store.shared.contents.Completes other name owner → identity = other) ∧
      (Served Bucket.stepwise AreUnclaimed {} Store.shared → after.contents.Consistent) := by
  intro after
  have done : (Bucket.stepwise.reconcile.run.run Store.shared).1 = .ok {} := by decide +kernel
  exact ⟨done, by decide +kernel,
    @settled_of_reconciled_run _ {} _ trivial rfl served_shared _ _ (Prod.fst_eq_iff.1 done)⟩

/-- A report is stored and loses its name to a deletion that is refused half-way, another
report is stored under the name, and a reconciliation succeeds: both reports are complete,
and only one of them can have the name. -/
theorem exists_inconsistent_reconciled_run :
    ∃ (bucket : Bucket) (store : Store), bucket.settings.writeMode = .independent ∧
      Served bucket AreMade {} store ∧ (bucket.reconcile.run.run store).1 = .ok {} ∧
        ¬ (bucket.reconcile.run.run store).2.contents.Consistent := by
  -- one evaluation of the run settles all that is read off it
  have result : (Bucket.stepwise.reconcile.run.run Store.shared).1 = .ok {} ∧
      (Bucket.stepwise.reconcile.run.run Store.shared).2.contents.records.get?
        Object.report.entry.key = some Object.report.entry.record ∧
      (Bucket.stepwise.reconcile.run.run Store.shared).2.contents.records.get?
        Object.secondReport.entry.key = some Object.secondReport.entry.record := by decide +kernel
  obtain ⟨done, found, alsoFound⟩ := result
  have storable : Object.report.Storable false := ⟨rfl, by decide +kernel⟩
  have alsoStorable : Object.secondReport.Storable false := ⟨rfl, by decide +kernel⟩
  refine ⟨Bucket.stepwise, Store.shared, rfl, served_shared, done, fun consistent => ?_⟩
  obtain ⟨owner, canonical, stored⟩ :=
    Contents.Stores.of_sound (Entry.sound Object.made_report storable) found
  obtain ⟨other, alsoCanonical, alsoStored⟩ :=
    Contents.Stores.of_sound (Entry.sound Object.made_secondReport alsoStorable) alsoFound
  -- names and owners are compared by evaluation, before anything is unified up to them
  have sameName : Object.secondReport.entry.name = Object.report.entry.name := by decide +kernel
  have sameOwner : Object.secondReport.entry.owner = Object.report.entry.owner := by
    decide +kernel
  rw [sameName] at alsoStored
  rw [sameOwner] at alsoCanonical
  obtain rfl := Uuid.toText_injective (canonical.symm.trans alsoCanonical)
  exact absurd (consistent.unshared _ _ _ _ stored alsoStored) (by decide +kernel)

end Depot
