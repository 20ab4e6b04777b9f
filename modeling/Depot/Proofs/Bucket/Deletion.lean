import Mathlib.Logic.Relation
import Depot.Bucket.Deletion
import Depot.Proofs.Batch
import Depot.Proofs.Bucket.Lookup

/-!
# What deleting objects does

Deleting an object removes its name while it leads to the object, its content and its
record, in this order. `Removal` says which contents a deletion may leave, whichever
calls fail: in the atomic mode all is removed or nothing, in the independent mode any
number of steps from the first may have been done.
-/

namespace Depot

namespace Contents

/-- Without the name that metadata claims, if it leads to the identity. -/
def withoutName (contents : Contents) (identity : Uuid) (metadata : Metadata) : Contents :=
  match Bucket.claimedName metadata with
  | none => contents
  | some key =>
    if contents.names.get? key = some identity.key then
      { contents with names := contents.names.erase key }
    else contents

/-- Without the content of an identity. -/
def withoutPayload (contents : Contents) (identity : Uuid) : Contents :=
  { contents with payloads := contents.payloads.erase identity.key }

/-- Without the record of an identity. -/
def withoutRecord (contents : Contents) (identity : Uuid) : Contents :=
  { contents with records := contents.records.erase identity.key }

/-- Without the object of an identity that has this metadata. -/
def without (contents : Contents) (identity : Uuid) (metadata : Metadata) : Contents :=
  ((contents.withoutName identity metadata).withoutPayload identity).withoutRecord identity

/-- What a deletion that fails after its first commit leaves. -/
inductive Interrupted (mode : WriteMode) (before : Contents) (identity : Uuid) :
    Contents → Prop where
  | unnamed {metadata : Metadata} (independent : mode = .independent)
      (found : before.metadataOf identity = .ok metadata) :
      Interrupted mode before identity (before.withoutName identity metadata)
  | emptied {metadata : Metadata} (independent : mode = .independent)
      (found : before.metadataOf identity = .ok metadata) :
      Interrupted mode before identity
        ((before.withoutName identity metadata).withoutPayload identity)

/-- What a deletion leaves when something was removed. -/
inductive Removal (mode : WriteMode) (before : Contents) (identity : Uuid) : Contents → Prop where
  | halfway {after : Contents} (interrupted : before.Interrupted mode identity after) :
      Removal mode before identity after
  | whole {metadata : Metadata} (found : before.metadataOf identity = .ok metadata) :
      Removal mode before identity (before.without identity metadata)

/-- What any number of deletions may leave. -/
def Removals (mode : WriteMode) : Contents → Contents → Prop :=
  Relation.ReflTransGen fun before after => ∃ identity, before.Removal mode identity after

/-- The object of one of these identities is removed completely. -/
def Clears (targets : List Uuid) (before after : Contents) : Prop :=
  ∃ identity ∈ targets, ∃ metadata, before.metadataOf identity = .ok metadata ∧
    after = before.without identity metadata

/-- Objects of these identities, any number of them, are removed completely. -/
def Cleared (targets : List Uuid) : Contents → Contents → Prop :=
  Relation.ReflTransGen (Clears targets)

/-- What deletions of objects of these identities leave, whether or not they come to their
end: objects that are removed completely, and one at most that is removed half-way. -/
def Pruned (mode : WriteMode) (targets : List Uuid) (before after : Contents) : Prop :=
  ∃ between, before.Cleared targets between ∧
    (after = between ∨ ∃ identity ∈ targets, between.Interrupted mode identity after)

/-- The batch that removes the name. -/
def nameRemoval (contents : Contents) (identity : Uuid) (metadata : Metadata) : Batch :=
  match Bucket.claimedName metadata with
  | none => .empty
  | some key =>
    if contents.names.get? key = some identity.key then Batch.empty.delete .name key else .empty

variable {rule : KeyRule} {mode : WriteMode} {targets more : List Uuid}
  {before between after : Contents} {identity : Uuid} {metadata : Metadata}

theorem Cleared.mono (cleared : before.Cleared targets after) (within : targets ⊆ more) :
    before.Cleared more after := by
  refine Relation.ReflTransGen.mono ?_ _ _ cleared
  rintro _ _ ⟨identity, member, removed⟩
  exact ⟨identity, within member, removed⟩

theorem Pruned.of_cleared (cleared : before.Cleared targets after) :
    before.Pruned mode targets after :=
  ⟨after, cleared, .inl rfl⟩

theorem Pruned.self (before : Contents) : before.Pruned mode targets before := .of_cleared .refl

theorem Pruned.mono (pruned : before.Pruned mode targets after) (within : targets ⊆ more) :
    before.Pruned mode more after := by
  obtain ⟨between, cleared, left⟩ := pruned
  refine ⟨between, cleared.mono within, left.imp_right ?_⟩
  rintro ⟨identity, member, interrupted⟩
  exact ⟨identity, within member, interrupted⟩

/-- Deletions may follow complete ones. -/
theorem Pruned.of_later (cleared : before.Cleared targets between)
    (pruned : between.Pruned mode targets after) : before.Pruned mode targets after := by
  obtain ⟨later, clearedLater, left⟩ := pruned
  exact ⟨later, cleared.trans clearedLater, left⟩

/-- Deletions of certain objects are deletions. -/
theorem Pruned.removals (pruned : before.Pruned mode targets after) :
    before.Removals mode after := by
  obtain ⟨between, cleared, left⟩ := pruned
  have whole : before.Removals mode between := by
    refine Relation.ReflTransGen.mono ?_ _ _ cleared
    rintro _ _ ⟨identity, _, metadata, found, rfl⟩
    exact ⟨identity, .whole found⟩
  rcases left with rfl | ⟨identity, _, interrupted⟩
  · exact whole
  · exact whole.tail ⟨identity, .halfway interrupted⟩

/-- What the removal of the name leaves. -/
theorem commit_nameRemoval
    (done : before.commit rule (before.nameRemoval identity metadata) = .ok after) :
    after = before.withoutName identity metadata := by
  unfold nameRemoval at done
  unfold withoutName
  cases claimed : Bucket.claimedName metadata with
  | none =>
      simp only [claimed] at done
      exact (Except.ok.inj done).symm
  | some key =>
      simp only [claimed] at done
      split at done
      · rename_i leads
        simp only [if_pos leads]
        exact (commit_delete_eq_ok_iff.1 done).2.symm
      · rename_i elsewhere
        simp only [if_neg elsewhere]
        exact (Except.ok.inj done).symm

/-- Where no name is to be removed, its removal changes nothing. -/
theorem withoutName_of_isEmpty (empty : (before.nameRemoval identity metadata).isEmpty = true) :
    before.withoutName identity metadata = before := by
  unfold nameRemoval at empty
  unfold withoutName
  cases claimed : Bucket.claimedName metadata with
  | none => rfl
  | some key =>
      simp only [claimed] at empty
      split at empty
      · exact absurd empty (by simp [Batch.isEmpty, Batch.delete, Batch.empty])
      · rename_i elsewhere
        simp only [if_neg elsewhere]

theorem commit_payloadRemoval
    (done : before.commit rule (Batch.empty.delete .payload identity.key) = .ok after) :
    after = before.withoutPayload identity :=
  (commit_delete_eq_ok_iff.1 done).2.symm

theorem commit_recordRemoval
    (done : before.commit rule (Batch.empty.delete .metadata identity.key) = .ok after) :
    after = before.withoutRecord identity :=
  (commit_delete_eq_ok_iff.1 done).2.symm

end Contents

namespace Bucket

variable {circumstances : Circumstances} {before : Contents} {bucket : Bucket}

/-- No record claims the empty key. -/
theorem ne_nil_of_claimedName {metadata : Metadata} {key : Bytes}
    (claimed : claimedName metadata = some key) : key ≠ [] := by
  unfold claimedName at claimed
  split at claimed
  · rw [← Option.some.inj claimed]
    exact nameKey_ne_nil _ _
  · exact absurd claimed (by simp)

/-- The batch that removes the name does nothing else. -/
theorem eq_delete_of_mem_nameRemoval {identity : Uuid} {metadata : Metadata} {write : Write}
    (member : write ∈ (before.nameRemoval identity metadata).writes) :
    ∃ key, key ≠ [] ∧ write = .delete .name key := by
  unfold Contents.nameRemoval at member
  cases claimed : claimedName metadata with
  | none =>
      rw [claimed] at member
      exact absurd member List.not_mem_nil
  | some key =>
      simp only [claimed] at member
      split at member
      · exact ⟨key, ne_nil_of_claimedName claimed, List.mem_singleton.1 member⟩
      · exact absurd member List.not_mem_nil

/-- The batch that removes the name is shown. -/
theorem leads_nameRemoval (identity : Uuid) (metadata : Metadata) :
    Leads circumstances (nameRemoval identity metadata).run before
      (Shows circumstances before (.ok (before.nameRemoval identity metadata))) := by
  unfold nameRemoval Contents.nameRemoval
  cases claimed : claimedName metadata with
  | none => exact Leads.give (Shows.of_eq _)
  | some key =>
      refine Leads.andThen (Leads.value? (ne_nil_of_claimedName claimed) Shows.refused ?_)
      show Leads circumstances (ExceptT.run (if before.names.get? key = some identity.key then
        Pure.pure (Batch.empty.delete .name key) else Pure.pure .empty)) before _
      split
      · rename_i leads
        exact Leads.give ⟨rfl, .inl (congrArg Except.ok (if_pos leads).symm)⟩
      · rename_i elsewhere
        exact Leads.give ⟨rfl, .inl (congrArg Except.ok (if_neg elsewhere).symm)⟩

/-- How the deletion of an object ends. One that fails because the object is missing has
removed nothing. -/
def Deletes (bucket : Bucket) (before : Contents) (identity : Uuid)
    (result : Except StoreError Unit) (after : Contents) : Prop :=
  match result with
  | .ok () => ∃ metadata, before.metadataOf identity = .ok metadata ∧
      after = before.without identity metadata
  | .error error => after = before ∨ error.isNotFound = false ∧
      before.Interrupted bucket.settings.writeMode identity after

/-- What deleting an object leads to. -/
theorem leads_delete (identity : Uuid) :
    Leads circumstances (bucket.delete identity).run before (bucket.Deletes before identity) := by
  refine Leads.follow (leads_metadata identity) (fun _ _ shows => .inl shows.1) ?_
  rintro metadata _ shows
  have found := shows.eq_of_ok
  obtain rfl := shows.1.symm
  refine Leads.follow (leads_nameRemoval identity metadata) (fun _ _ shows => .inl shows.1) ?_
  rintro names _ shows
  obtain rfl := Except.ok.inj shows.eq_of_ok
  obtain rfl := shows.1.symm
  cases mode : bucket.settings.writeMode with
  | atomic =>
      dsimp only
      refine Leads.andThen (Leads.commit (fun _ _ => .inl rfl) (fun _ _ => .inl rfl) ?_)
      intro after committed
      obtain ⟨_, namesAndContent, record⟩ := Contents.commit_extend_eq_ok_iff.1 committed
      obtain ⟨_, name, content⟩ := Contents.commit_extend_eq_ok_iff.1 namesAndContent
      obtain rfl := Contents.commit_nameRemoval name
      obtain rfl := Contents.commit_payloadRemoval content
      obtain rfl := Contents.commit_recordRemoval record
      exact Leads.emitIf ⟨metadata, found, rfl⟩
  | independent =>
      -- a refused commit leaves the object half-way, whatever it was refused for
      have interrupted : ∀ {error : StoreError} {after : Contents}, error.isNotFound = false →
          before.Interrupted .independent identity after →
          bucket.Deletes before identity (.error error) after := by
        intro error after cause halfway
        rw [← mode] at halfway
        exact .inr ⟨cause, halfway⟩
      -- the commits after the name's, which is left out if there is no name to remove
      have rest : Leads circumstances (do
          Session.commit (Batch.empty.delete .payload identity.key)
          Session.commit (Batch.empty.delete .metadata identity.key)
          bucket.report (.objectDeleted identity) : Session Unit).run
          (before.withoutName identity metadata) (bucket.Deletes before identity) := by
        refine Leads.andThen (Leads.commit (fun _ _ => interrupted rfl (.unnamed rfl found)) ?_ ?_)
        · exact fun _ refused =>
            interrupted (Contents.isNotFound_of_applyAll refused) (.unnamed rfl found)
        intro between committed
        obtain rfl := Contents.commit_payloadRemoval committed
        refine Leads.andThen (Leads.commit (fun _ _ => interrupted rfl (.emptied rfl found)) ?_ ?_)
        · exact fun _ refused =>
            interrupted (Contents.isNotFound_of_applyAll refused) (.emptied rfl found)
        intro after committed
        obtain rfl := Contents.commit_recordRemoval committed
        exact Leads.emitIf ⟨metadata, found, rfl⟩
      dsimp only
      split
      · rename_i empty
        rwa [Contents.withoutName_of_isEmpty empty] at rest
      · refine Leads.andThen (Leads.commit (fun _ _ => .inl rfl) (fun _ _ => .inl rfl) ?_)
        intro between committed
        obtain rfl := Contents.commit_nameRemoval committed
        exact rest

/-- A deletion removes nothing but its object. -/
theorem Deletes.pruned {identity : Uuid} {result : Except StoreError Unit} {after : Contents}
    (deletes : bucket.Deletes before identity result after) :
    before.Pruned bucket.settings.writeMode [identity] after := by
  have member : identity ∈ [identity] := List.mem_cons_self
  cases result with
  | ok =>
      obtain ⟨metadata, found, left⟩ := deletes
      exact .of_cleared (.single ⟨identity, member, metadata, found, left⟩)
  | error error =>
      rcases deletes with rfl | ⟨_, interrupted⟩
      · exact .self _
      · exact ⟨before, .refl, .inr ⟨identity, member, interrupted⟩⟩

/-- What deleting the object of a name leads to. -/
theorem leads_deleteNamed (name owner : String) :
    Leads circumstances (bucket.deleteNamed name owner).run before fun result after =>
      match result with
      | .ok () => ∃ identity metadata, before.resolved name owner = .ok identity ∧
          before.metadataOf identity = .ok metadata ∧ after = before.without identity metadata
      | .error _ => after = before ∨
          ∃ identity, before.Interrupted bucket.settings.writeMode identity after := by
  refine Leads.follow (leads_resolve name owner) (fun _ _ shows => .inl shows.1) ?_
  rintro identity _ shows
  have leadsTo := shows.eq_of_ok
  obtain rfl := shows.1
  refine (leads_delete identity).mono fun result after deletes => ?_
  cases result with
  | error error => exact deletes.imp_right fun interrupted => ⟨identity, interrupted.2⟩
  | ok =>
      obtain ⟨metadata, found, left⟩ := deletes
      exact ⟨identity, metadata, leadsTo, found, left⟩

/-- A deletion by name removes nothing but the object that the name leads to. -/
theorem leads_deleteNamed_pruned (name owner : String) :
    Leads circumstances (bucket.deleteNamed name owner).run before fun _ after =>
      before.Pruned bucket.settings.writeMode (before.resolved name owner).toOption.toList
        after := by
  refine Leads.follow (leads_resolve name owner) (fun _ _ shows => shows.1 ▸ .self _) ?_
  rintro identity _ shows
  have leadsTo := shows.eq_of_ok
  obtain rfl := shows.1
  refine (leads_delete identity).mono fun result after deletes => ?_
  rw [leadsTo]
  exact deletes.pruned

end Bucket

end Depot
