import Depot.Proofs.Consistency.Tenancy
import Depot.Proofs.Runs

/-!
# What one owner can do to another

A run may be confined to the objects of one owner: it stores objects of the owner, deletes
objects of the owner by identity, by name and by selections, and reads whatever it likes. Any
of its calls may be refused, so objects of the owner may be left half stored or half removed.
From consistent contents, no such run changes what another owner finds. Reconciliations are
not confined to an owner and are not part of these runs.
-/

namespace Depot

/-- An object can be stored for an owner: it is the owner's, and so is whatever is stored under
its identity. -/
structure Object.IsFor (object : Object) (owner : Uuid) (contents : Contents) : Prop where
  made : object.Made
  owned : Uuid.parse? object.owner = some owner
  unused : ∀ name other, contents.Stores object.identity name other → other = owner

/-- A request is confined to the objects of an owner. -/
def Request.KeepsTo (owner : Uuid) (contents : Contents) : Request → Prop
  | .create object => object.IsFor owner contents
  | .createBatch objects => ∀ object ∈ objects, object.IsFor owner contents
  | .run selection => selection.purpose = .delete → selection.IsFor owner
  | .deleteSelected selection => selection.IsFor owner
  | .delete identity => ∀ name other, contents.Stores identity name other → other = owner
  | .deleteNamed _ text => Uuid.parse? text = some owner
  | .reconcile => False
  | _ => True

/-- The stores that a run confined to the objects of an owner can reach from a start. Between
requests the hazard may become any of one writer. -/
inductive Confined (bucket : Bucket) (owner : Uuid) (start : Store) : Store → Prop where
  | start : Confined bucket owner start start
  | serve {store : Store} (prior : Confined bucket owner start store) (request : Request)
      (keeps : request.KeepsTo owner store.contents) :
      Confined bucket owner start ((bucket.serve request).run store).2
  | arrange {store : Store} (prior : Confined bucket owner start store) (hazard : Hazard)
      (alone : hazard.IsAlone) : Confined bucket owner start { store with hazard }

variable {bucket : Bucket} {before after : Contents} {start store : Store} {request : Request}
  {owner tenant : Uuid} {object : Object} {count : Nat}

/-- The entry of an object that can be stored for another owner is alien to an owner. -/
theorem Object.IsFor.alien (own : object.IsFor owner before) (apart : owner ≠ tenant)
    (storable : object.Storable bucket.settings.requireContentType) :
    before.Alien tenant object.entry := by
  obtain ⟨other, canonical, described⟩ := Entry.sound own.made storable
  have spelled : Uuid.parse? other.toText = some owner := canonical ▸ own.owned
  rw [Uuid.parse?_toText] at spelled
  obtain rfl := Option.some.inj spelled
  exact ⟨⟨other, apart, canonical, described⟩, fun name stored =>
    apart (own.unused name tenant stored).symm⟩

/-- Every object that is handed over with a confined request can be stored for the owner. -/
theorem Request.KeepsTo.isFor (keeps : request.KeepsTo owner before) :
    ∀ object ∈ request.objects, object.IsFor owner before := by
  cases request with
  | create object => exact List.forall_mem_singleton.2 keeps
  | createBatch objects => exact keeps
  | _ => exact fun object member => absurd member List.not_mem_nil

/-- A confined request is to remove nothing of another owner. -/
theorem Request.KeepsTo.foreign (keeps : request.KeepsTo owner before) (apart : owner ≠ tenant)
    (recorded : before.Recorded) (secluded : before.Secluded tenant) :
    ∀ identity ∈ request.targets before, before.Foreign tenant identity := by
  have matched : ∀ {selection : Selection}, selection.IsFor owner →
      ∀ identity ∈ before.matched selection, before.Foreign tenant identity := by
    intro selection own identity member name stored
    obtain ⟨other, storedAlso⟩ := recorded.stores_of_mem_matched own member
    exact apart (storedAlso.unique stored).2
  intro identity member
  cases request with
  | run selection =>
      simp only [targets, Contents.doomed] at member
      cases purpose : selection.purpose with
      | fetch =>
          rw [purpose] at member
          exact absurd member List.not_mem_nil
      | delete =>
          rw [purpose] at member
          exact matched (keeps purpose) identity member
  | deleteSelected selection => exact matched keeps identity member
  | delete named =>
      obtain rfl := List.mem_singleton.1 member
      exact fun name stored => apart (keeps name tenant stored).symm
  | deleteNamed name text =>
      cases leads : before.resolved name text with
      | error => simp [targets, leads, Except.toOption] at member
      | ok resolved =>
          simp only [targets, leads, Except.toOption, Option.toList_some,
            List.mem_singleton] at member
          obtain rfl := member
          obtain ⟨other, holder, parsed, _, found, read⟩ := Contents.resolved_eq_ok_iff.1 leads
          obtain rfl := Option.some.inj (parsed.symm.trans keeps)
          exact secluded name other identity holder apart found read
  | _ => exact absurd member List.not_mem_nil

/-- A confined request changes nothing for another owner, whatever calls are refused. -/
theorem Outcome.sameFor (keeps : request.KeepsTo owner before) (apart : owner ≠ tenant)
    (recorded : before.Recorded) (secluded : before.Secluded tenant)
    (outcome : Outcome bucket before request count after) :
    before.SameFor tenant after ∧ after.Secluded tenant := by
  cases outcome with
  | created created =>
      have alien : ∀ object ∈ request.objects,
          object.Storable bucket.settings.requireContentType →
            before.Alien tenant object.entry :=
        fun object member storable => (keeps.isFor object member).alien apart storable
      exact ⟨.created alien created, secluded.created alien created⟩
  | pruned pruned =>
      have foreign := keeps.foreign apart recorded secluded
      exact ⟨.pruned recorded foreign pruned, secluded.removals pruned.removals⟩
  | repaired => exact keeps.elim

/-- A confined run changes nothing for another owner. -/
theorem Confined.sameFor (alone : start.hazard.IsAlone) (consistent : start.contents.Consistent)
    (apart : owner ≠ tenant) (confined : Confined bucket owner start store) :
    store.hazard.IsAlone ∧ store.contents.Recorded ∧ store.contents.Secluded tenant ∧
      start.contents.SameFor tenant store.contents := by
  induction confined with
  | start =>
      exact ⟨alone, consistent.recorded, consistent.secluded tenant, .refl tenant start.contents⟩
  | @serve store prior request keeps inductionHypothesis =>
      obtain ⟨alone, recorded, secluded, same⟩ := inductionHypothesis
      have hold := Circumstances.hold_unreliable alone
      obtain ⟨holdsAfter, count, outcome, _⟩ := bucket.leads_serve_fulfils request store hold rfl
      obtain ⟨step, secludedAfter⟩ := outcome.sameFor keeps apart recorded secluded
      have made : AreMade store.contents request.objects :=
        fun object member => (keeps.isFor object member).made
      exact ⟨holdsAfter.alone, outcome.course.recorded made recorded, secludedAfter,
        same.trans step⟩
  | arrange prior hazard alone inductionHypothesis => exact ⟨alone, inductionHypothesis.2⟩

/-- After a run that is confined to the objects of one owner, in either mode and whatever calls
were refused, every other owner finds the same by names and by selections as in the consistent
contents before. -/
theorem tenant_finds_same (alone : start.hazard.IsAlone) (consistent : start.contents.Consistent)
    (apart : owner ≠ tenant) (confined : Confined bucket owner start store) :
    (∀ name text, Uuid.parse? text = some tenant →
      ((bucket.fetchNamed name text).run.run { store with hazard := .none }).1
        = ((bucket.fetchNamed name text).run.run { start with hazard := .none }).1) ∧
    ∀ selection : Selection, selection.IsFor tenant →
      ((bucket.fetchSelected selection).run.run { store with hazard := .none }).1
        = ((bucket.fetchSelected selection).run.run { start with hazard := .none }).1 := by
  obtain ⟨_, recorded, _, same⟩ := confined.sameFor alone consistent apart
  constructor
  · intro name text spelled
    rw [(bucket.leads_fetchNamed name text).value_of_calm_run,
      (bucket.leads_fetchNamed name text).value_of_calm_run]
    exact same.objectNamed_eq consistent spelled name
  · intro selection own
    rw [(bucket.leads_fetchSelected selection).value_of_calm_run,
      (bucket.leads_fetchSelected selection).value_of_calm_run]
    exact same.objectsSelected_eq consistent.recorded recorded own

/-- The run in which storing a summary is refused before its record, and the deletion of a
report of the same owner is refused behind its name. -/
theorem tenant_finds_same_notice :
    let notice := ({} : Contents).withEntry Object.notice.entry
    let start : Store := { contents := notice.withEntry Object.report.entry,
                           hazard := .gated [(.commit, 2)] }
    let stored := ((Bucket.stepwise.serve (.create Object.summary)).run start).2
    let left := ((Bucket.stepwise.serve (.delete Object.report.identity)).run
      { stored with hazard := .gated [(.commit, 1)] }).2
    stored.contents.sizes = [3, 3, 2] ∧ left.contents.sizes = [3, 2, 2] ∧
      ((Bucket.stepwise.fetchNamed "notice" Object.notice.owner).run.run
        { left with hazard := .none }).1 = .ok Object.notice.sealed ∧
      (∀ name text, Uuid.parse? text = some ⟨6⟩ →
        ((Bucket.stepwise.fetchNamed name text).run.run { left with hazard := .none }).1
          = ((Bucket.stepwise.fetchNamed name text).run.run { start with hazard := .none }).1) ∧
      ∀ selection : Selection, selection.IsFor ⟨6⟩ →
        ((Bucket.stepwise.fetchSelected selection).run.run { left with hazard := .none }).1
          = ((Bucket.stepwise.fetchSelected selection).run.run
            { start with hazard := .none }).1 := by
  intro notice start stored left
  have ofNotice : Object.notice.Storable false := ⟨rfl, by decide +kernel⟩
  have ofReport : Object.report.Storable false := ⟨rfl, by decide +kernel⟩
  have before : notice.Consistent :=
    Contents.consistent_empty.withEntry (Entry.sound Object.made_notice ofNotice) rfl rfl
  have consistent : start.contents.Consistent :=
    before.withEntry (Entry.sound Object.made_report ofReport) (by decide +kernel)
      (by decide +kernel)
  have apart : (⟨3⟩ : Uuid) ≠ ⟨6⟩ := by decide
  -- nothing is stored under the identity of the summary
  have ofOwner : Object.summary.IsFor ⟨3⟩ start.contents := by
    refine ⟨Object.made_summary, by decide +kernel, ?_⟩
    rintro name other ⟨record, found, _⟩
    have absent : start.contents.records.get? Object.summary.identity.key = none := by
      decide +kernel
    exact absurd (absent.symm.trans found) (by simp)
  -- the report is still recorded when it is to be deleted
  have keeps : (Request.delete Object.report.identity).KeepsTo ⟨3⟩ stored.contents := by
    obtain ⟨owner, canonical, described⟩ := Entry.sound Object.made_report ofReport
    have spelled : owner.toText = Uuid.toText ⟨3⟩ := by
      rw [← canonical]
      decide +kernel
    obtain rfl := Uuid.toText_injective spelled
    have held : stored.contents.records.get? Object.report.identity.key
        = some Object.report.entry.record := by decide +kernel
    exact fun name other also => (also.unique ⟨_, held, described⟩).2
  have confined : Confined Bucket.stepwise ⟨3⟩ start left :=
    .serve (.arrange (.serve .start (.create Object.summary) ofOwner) (.gated [(.commit, 1)])
      trivial) (.delete Object.report.identity) keeps
  refine ⟨by decide +kernel, by decide +kernel, by decide +kernel, ?_⟩
  exact tenant_finds_same trivial consistent apart confined

end Depot
