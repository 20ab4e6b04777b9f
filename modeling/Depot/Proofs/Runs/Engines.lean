import Depot.Proofs.Bucket.Engines
import Depot.Proofs.Consistency.Names
import Depot.Proofs.Runs.Footprint
import Depot.Proofs.Runs.Modes
import Depot.Proofs.Runs.Recovery

/-!
# The engines as a client sees them

An engine on disk refuses the empty key, and keys beyond 511 bytes where they are to be bound;
an engine in memory refuses nothing. Starting from empty regions, and where no call is refused
for another reason, no client can tell them apart: a bucket never hands a key over that one of
them refuses. This rests on what holds of the contents throughout a run: nothing is bound to
the empty key, every record is that of a stored object, and every name that is bound is within
the limit. So a name beyond the limit need not be looked up, since the look-up would find
nothing.
-/

namespace Depot

namespace Contents

/-- Every name that is bound is within the limit and has an owner in canonical form. -/
def Limited (contents : Contents) : Prop :=
  ∀ key holder, contents.names.get? key = some holder →
    ∃ (name : String) (owner : Uuid), name.utf8ByteSize ≤ Object.nameLimit ∧
      nameKey name owner.toText = key

/-- What holds of the contents throughout every run. -/
structure Bounded (contents : Contents) : Prop where
  recorded : contents.Recorded
  keyed : contents.Keyed
  limited : contents.Limited

variable {before : Contents} {entry : Entry}

/-- A sound entry has a name within the limit and an owner in canonical form. -/
theorem limited_of_sound (sound : entry.Sound) :
    ∃ (name : String) (owner : Uuid), name.utf8ByteSize ≤ Object.nameLimit ∧
      nameKey name owner.toText = entry.nameKey := by
  obtain ⟨owner, canonical, _, _, describes⟩ := sound
  exact ⟨entry.name, owner, describes.short, by rw [Entry.nameKey, canonical]⟩

/-- After a reconciliation, names are those of stored objects. -/
theorem Recorded.limited_reconciled (recorded : before.Recorded) :
    (Reconciliation.reconciled before).Limited := by
  intro key holder found
  obtain ⟨_, name, owner, complete, claim, _⟩ := recorded.completes_of_get?_reconciled found
  exact ⟨name, owner, complete.1.short, claim⟩

theorem bounded_empty : ({} : Contents).Bounded where
  recorded := consistent_empty.recorded
  keyed := consistent_empty.keyed
  limited _ _ found := absurd found (by simp)

/-- A name beyond the limit leads nowhere. -/
theorem Limited.get?_names (limited : before.Limited) {name : String} {owner : Uuid}
    (long : Object.nameLimit < name.utf8ByteSize) :
    before.names.get? (nameKey name owner.toText) = none := by
  refine Option.eq_none_iff_forall_ne_some.2 fun holder found => ?_
  obtain ⟨other, otherOwner, short, same⟩ := limited _ _ found
  obtain ⟨rfl, _⟩ := nameKey_injective same
  exact absurd long (Nat.not_lt.2 short)

end Contents

variable {bucket : Bucket} {before after contents : Contents} {rule : KeyRule}
  {client : List Exchange → Request}

/-- Every course keeps contents bounded. -/
theorem Course.bounded {objects : List Object} {count : Nat} (made : AreMade before objects)
    (course : Course bucket objects before count after) (bounded : before.Bounded) :
    after.Bounded where
  recorded := course.recorded made bounded.recorded
  keyed := course.keyed bounded.keyed
  limited := course.allNames made bounded.limited (fun _ sound => Contents.limited_of_sound sound)
    bounded.recorded.limited_reconciled

namespace Bucket

/-- The identity that a name leads to, found by a plain look-up: names beyond the limit are
looked up like all others. -/
def resolvePlainly (_bucket : Bucket) (name owner : String) : Session Uuid := do
  let owner ← Session.accept (Uuid.normalise Metadata.Key.owner.text owner)
  let key ← require (.nameNotFound name owner) (← Session.value? .name (nameKey name owner))
  Session.decoded (Uuid.ofKey key)

/-- Where no call is refused, a name is resolved as by a plain look-up. -/
theorem resolve_eq_resolvePlainly {store : Store} (calm : store.hazard = .none)
    (limited : store.contents.Limited) (name owner : String) :
    (bucket.resolve name owner).run.run store
      = (bucket.resolvePlainly name owner).run.run store := by
  rw [resolve, resolvePlainly, run_bind, run_bind]
  unfold Uuid.normalise
  cases Uuid.parse? owner with
  | none => rfl
  | some identifier =>
      by_cases long : Object.nameLimit < name.utf8ByteSize
      · have present := nameKey_ne_nil name identifier.toText
        show ((if Object.nameLimit < name.utf8ByteSize then _ else _ : Session Uuid)).run.run store
          = (Session.value? .name (nameKey name identifier.toText) >>= fun _ => _).run.run store
        rw [if_pos long, run_bind (Session.value? _ _),
          Session.run_value? calm .name present]
        dsimp only
        rw [show store.contents.get? .name (nameKey name identifier.toText) = none from
          limited.get?_names long]
        rfl
      · show ((if Object.nameLimit < name.utf8ByteSize then _ else _ : Session Uuid)).run.run store
          = _
        rw [if_neg long]
        rfl

/-- A request keeps contents bounded. -/
theorem leads_reply_bounded {circumstances : Circumstances} {request : Request}
    (made : ∀ object ∈ request.objects, object.Made) (bounded : before.Bounded) :
    Leads circumstances (bucket.reply request) before fun _ after => after.Bounded := by
  intro store hold start
  obtain ⟨holds, count, course, _⟩ := bucket.leads_serve request store hold start
  rw [serve_eq, StateT.run_map] at holds course
  exact ⟨holds, course.bounded made bounded⟩

/-- A request to bounded contents abides by the rule of every engine that takes objects. -/
theorem abides_reply (takes : rule.TakesObjects) {request : Request}
    (made : ∀ object ∈ request.objects, object.Made) (bounded : before.Bounded) :
    Abides rule (bucket.reply request) before := by
  have covers : rule.footprint.CoversRequest bucket before request := {
    identities := rule.coversIdentities
    names := fun _ builds => rule.coversName builds.ne_nil
    entries := fun object member storable =>
      KeyRule.coversEntry ((Entry.sound (made object member) storable).admits takes)
    visits := fun _ _ => trivial
    planned := fun _ => Reconciliation.admits_of_mem_plan takes bounded.recorded bounded.keyed }
  exact (uses_reply covers).abides

/-- Conversing keeps contents bounded. -/
theorem leads_converse_bounded {circumstances : Circumstances}
    (made : ∀ seen, ∀ object ∈ (client seen).objects, object.Made) (bounded : contents.Bounded)
    (count : Nat) :
    Leads circumstances (bucket.converse client count) contents fun _ after => after.Bounded := by
  induction count with
  | zero => exact Leads.pure bounded
  | succ count inductionHypothesis =>
      refine Leads.bind inductionHypothesis fun seen between reached => ?_
      refine Leads.bind (leads_reply_bounded (made seen) reached) fun reply after left => ?_
      exact fun store hold start => ⟨hold, start.symm ▸ left⟩

/-- A conversation over bounded contents abides by the rule of every engine that takes
objects. -/
theorem abides_converse (takes : rule.TakesObjects)
    (made : ∀ seen, ∀ object ∈ (client seen).objects, object.Made) (bounded : contents.Bounded)
    (count : Nat) : Abides rule (bucket.converse client count) contents := by
  induction count with
  | zero => exact .pure []
  | succ count inductionHypothesis =>
      refine .bind inductionHypothesis (leads_converse_bounded made bounded count) ?_
      intro seen between reached
      refine .bind (abides_reply takes (made seen) reached)
        (leads_reply_bounded (made seen) reached) fun reply after _ => ?_
      exact .map (fun contents =>
        seen ++ [⟨client seen, reply, (client seen).back reply, contents⟩]) .observe

/-- Starting from empty regions, and where no call is refused but for its keys, every client
sees the same of an engine on disk as of one in memory: the same replies, the same objects
given back, and the same contents of the regions after every request. No key is handed over
that the engine on disk refuses, to be bound or to be looked up, and at any time names are
resolved as by a plain look-up, however long they are. -/
theorem converse_onDisk_eq_inMemory (bucket : Bucket) (client : List Exchange → Request)
    (made : ∀ seen, ∀ object ∈ (client seen).objects, object.Made) (count : Nat) :
    let inMemory := (bucket.converse client count).run {}
    let onDisk := (bucket.converse client count).run { keyRule := .pageBound }
    onDisk.1 = inMemory.1 ∧ onDisk.2 = inMemory.2.under .pageBound ∧
      Abides .pageBound (bucket.converse client count) {} ∧
      ∀ store ∈ [inMemory.2, onDisk.2], ∀ name owner,
        (bucket.resolve name owner).run.run store
          = (bucket.resolvePlainly name owner).run.run store := by
  intro inMemory onDisk
  have hold : (Circumstances.reliable .unrestricted).Hold {} := ⟨rfl, trivial, fun _ => rfl⟩
  have abides : Abides .pageBound (bucket.converse client count) {} :=
    abides_converse KeyRule.takesObjects_pageBound made Contents.bounded_empty count
  have same : onDisk = (inMemory.1, inMemory.2.under .pageBound) := abides.run_under hold rfl
  have left : onDisk.2 = inMemory.2.under .pageBound := by rw [same]
  obtain ⟨holds, bounded⟩ :=
    @leads_converse_bounded bucket {} client _ made Contents.bounded_empty count {} hold rfl
  have calm : inMemory.2.hazard = .none := holds.calm id
  refine ⟨by rw [same], left, abides, fun store member name owner => ?_⟩
  rcases List.mem_cons.1 member with rfl | last
  · exact resolve_eq_resolvePlainly calm bounded.limited name owner
  · obtain rfl := List.mem_singleton.1 last
    have calmOnDisk : onDisk.2.hazard = .none := by rwa [left]
    have limited : onDisk.2.contents.Limited := by
      rw [left]
      exact bounded.limited
    exact resolve_eq_resolvePlainly calmOnDisk limited name owner

/-- The conversation in which a report is stored, another report of this name is refused with
the rest of its batch, and the regions are reconciled. -/
theorem converse_onDisk_about_reports :
    let client : List Exchange → Request
      | [] => .create Object.report
      | [_] => .createBatch [Object.summary, Object.secondReport]
      | _ => .reconcile
    let inMemory := (stepwise.converse client 3).run {}
    let onDisk := (stepwise.converse client 3).run { keyRule := .pageBound }
    onDisk.2.contents.sizes = [1, 1, 1] ∧
      onDisk.1 = inMemory.1 ∧ onDisk.2 = inMemory.2.under .pageBound ∧
      Abides .pageBound (stepwise.converse client 3) {} ∧
      ∀ store ∈ [inMemory.2, onDisk.2], ∀ name owner,
        (stepwise.resolve name owner).run.run store
          = (stepwise.resolvePlainly name owner).run.run store := by
  intro client
  refine ⟨by decide +kernel, converse_onDisk_eq_inMemory stepwise client ?_ 3⟩
  rintro (_ | ⟨first, _ | ⟨second, rest⟩⟩)
  · exact List.forall_mem_singleton.2 Object.made_report
  · exact List.forall_mem_cons.2 ⟨Object.made_summary,
      List.forall_mem_singleton.2 Object.made_secondReport⟩
  · exact fun object member => absurd member List.not_mem_nil

end Bucket

end Depot
