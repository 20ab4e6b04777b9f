import Depot.Proofs.Consistency
import Depot.Proofs.Reconciliation

/-!
# How consistent a reconciliation leaves contents

Contents whose records are all those of stored objects are settled after a
reconciliation: only complete objects are left, every name leads to an object that
has it, and every object's name leads to an object of that name and owner. They are
consistent exactly if no two complete objects share a name and an owner; of objects
that do, one is found by the name and the others stay, which no reconciliation
changes. Consistent contents need no repair.
-/

namespace Depot

open Reconciliation

/-- The record of an object claims the object's name. -/
theorem RecordOf.claim {record : Bytes} {identity : Uuid} {name : String} {owner : Uuid}
    (described : RecordOf record identity name owner) :
    claimOfRecord? record = some (nameKey name owner.toText) := by
  obtain ⟨metadata, read, describes⟩ := described
  have named : name ≠ "" := by
    rintro rfl
    exact absurd describes.nonempty (by decide)
  simp only [claimOfRecord?, read, claim?, describes.hasName, describes.hasOwner, Option.getD_some,
    named, owner.toText_ne_empty, or_self, if_false]

namespace Contents

variable {contents : Contents} {identity : Uuid} {name : String} {owner : Uuid}

/-- An object is complete: it is stored and has content. -/
def Completes (contents : Contents) (identity : Uuid) (name : String) (owner : Uuid) : Prop :=
  contents.Stores identity name owner ∧ contents.payloads.contains identity.key = true

/-- What a reconciliation achieves. -/
structure Settled (contents : Contents) : Prop where
  sameKeys : ∀ key, contents.payloads.contains key = contents.records.contains key
  recorded : contents.Recorded
  led : ∀ key value, contents.names.get? key = some value →
    ∃ identity name owner, contents.Stores identity name owner ∧
      nameKey name owner.toText = key ∧ identity.key = value
  found : ∀ identity name owner, contents.Stores identity name owner →
    ∃ holder, contents.Stores holder name owner ∧
      contents.names.get? (nameKey name owner.toText) = some holder.key

/-- Contents are consistent exactly if they are settled and no two objects share a name
and an owner. -/
theorem consistent_iff_settled : contents.Consistent ↔ contents.Settled ∧ contents.Unshared := by
  constructor
  · intro consistent
    refine ⟨⟨consistent.sameKeys, consistent.recorded, ?_, ?_⟩, consistent.unshared⟩
    · exact fun key value found => (consistent.named key value).1 found
    · intro identity name owner stored
      exact ⟨identity, stored, (consistent.named _ _).2 ⟨_, _, _, stored, rfl, rfl⟩⟩
  · rintro ⟨settled, unshared⟩
    refine ⟨settled.sameKeys, settled.recorded, fun key value => ⟨settled.led key value, ?_⟩⟩
    rintro ⟨identity, name, owner, stored, rfl, rfl⟩
    obtain ⟨holder, holds, found⟩ := settled.found identity name owner stored
    rwa [unshared _ _ _ _ stored holds]

/-- An identity claims a name exactly if it is that of a complete object of the name. -/
theorem Recorded.claimed?_eq_some_iff (recorded : contents.Recorded) {key claim : Bytes} :
    claimed? contents key = some claim ↔ ∃ identity name owner,
      contents.Completes identity name owner ∧ identity.key = key ∧
        nameKey name owner.toText = claim := by
  unfold claimed?
  constructor
  · intro claims
    obtain ⟨record, found, claimed⟩ := Option.bind_eq_some_iff.1 claims
    obtain ⟨identity, name, owner, rfl, described⟩ := recorded _ _ found
    split at claimed
    · rename_i present
      rw [described.claim] at claimed
      exact ⟨identity, name, owner, ⟨⟨record, found, described⟩, present⟩, rfl,
        Option.some.inj claimed⟩
    · exact absurd claimed (by simp)
  · rintro ⟨identity, name, owner, ⟨⟨record, found, described⟩, present⟩, rfl, rfl⟩
    rw [found, Option.bind_some, if_pos present, described.claim]

/-- The complete objects are those that are stored after a reconciliation. -/
theorem Recorded.stores_reconciled_iff (recorded : contents.Recorded) :
    (reconciled contents).Stores identity name owner ↔ contents.Completes identity name owner := by
  unfold Stores reconciled Completes
  simp only [OrderedMap.get?_filter, Option.filter_eq_some_iff]
  constructor
  · rintro ⟨record, ⟨found, live⟩, described⟩
    obtain ⟨claim, claims⟩ := Option.isSome_iff_exists.1 live
    obtain ⟨other, _, _, ⟨_, present⟩, same, _⟩ := recorded.claimed?_eq_some_iff.1 claims
    obtain rfl := Uuid.key_injective same
    exact ⟨⟨record, found, described⟩, present⟩
  · rintro ⟨⟨record, found, described⟩, present⟩
    refine ⟨record, ⟨found, ?_⟩, described⟩
    rw [recorded.claimed?_eq_some_iff.2
      ⟨identity, name, owner, ⟨⟨record, found, described⟩, present⟩, rfl, rfl⟩]
    rfl

/-- After a reconciliation every name leads to a complete object that has it. -/
theorem Recorded.completes_of_get?_reconciled (recorded : contents.Recorded) {key value : Bytes}
    (found : (reconciled contents).names.get? key = some value) :
    ∃ identity name owner, contents.Completes identity name owner ∧
      nameKey name owner.toText = key ∧ identity.key = value := by
  have claims : claimed? contents value = some key := by
    rcases held_or_claims_of_get?_names found with held | claims
    · exact (get?_keptNames_iff.1 held).2
    · exact mem_liveClaims_iff.1 claims
  obtain ⟨identity, name, owner, complete, same, claim⟩ := recorded.claimed?_eq_some_iff.1 claims
  exact ⟨identity, name, owner, complete, claim, same⟩

/-- A reconciliation settles contents. -/
theorem Recorded.settled (recorded : contents.Recorded) : (reconciled contents).Settled where
  sameKeys key := by
    simp only [reconciled, OrderedMap.contains_eq_isSome, OrderedMap.get?_filter]
    cases claims : claimed? contents key with
    | none => cases contents.payloads.get? key <;> cases contents.records.get? key <;> rfl
    | some claim =>
        obtain ⟨identity, _, _, ⟨⟨record, found, _⟩, present⟩, rfl, _⟩ :=
          recorded.claimed?_eq_some_iff.1 claims
        rw [OrderedMap.contains_eq_isSome] at present
        obtain ⟨payload, paid⟩ := Option.isSome_iff_exists.1 present
        simp [found, paid, Option.filter]
  recorded key record found := by
    simp only [reconciled, OrderedMap.get?_filter, Option.filter_eq_some_iff] at found
    exact recorded key record found.1
  led key value found := by
    obtain ⟨identity, name, owner, complete, claim, same⟩ :=
      recorded.completes_of_get?_reconciled found
    exact ⟨identity, name, owner, recorded.stores_reconciled_iff.2 complete, claim, same⟩
  found identity name owner stored := by
    have complete := recorded.stores_reconciled_iff.1 stored
    have claims := recorded.claimed?_eq_some_iff.2 ⟨identity, name, owner, complete, rfl, rfl⟩
    -- someone holds the name after the repair, and nobody holds a name that is not their own
    obtain ⟨value, held⟩ : ∃ value, (reconciled contents).names.get? (nameKey name owner.toText)
        = some value := get?_names_of_claims (mem_liveClaims_iff.2 claims)
    obtain ⟨holder, _, _, held', claim, rfl⟩ := recorded.completes_of_get?_reconciled held
    obtain ⟨rfl, rfl⟩ := nameKey_injective claim
    exact ⟨holder, recorded.stores_reconciled_iff.2 held', held⟩

/-- After a reconciliation contents are consistent exactly if no two complete objects
shared a name and an owner before. -/
theorem Recorded.consistent_reconciled_iff (recorded : contents.Recorded) :
    (reconciled contents).Consistent ↔ ∀ identity other name owner,
      contents.Completes identity name owner → contents.Completes other name owner →
        identity = other := by
  rw [consistent_iff_settled, and_iff_right recorded.settled]
  unfold Unshared
  simp only [recorded.stores_reconciled_iff]

/-- In consistent contents every stored object is complete. -/
theorem Consistent.completes (consistent : contents.Consistent)
    (stored : contents.Stores identity name owner) : contents.Completes identity name owner := by
  obtain ⟨record, found, _⟩ := id stored
  refine ⟨stored, ?_⟩
  rw [consistent.sameKeys, OrderedMap.contains_eq_isSome, found]
  rfl

/-- In consistent contents a name leads to the identity that claims it. -/
theorem Consistent.get?_names_iff (consistent : contents.Consistent) {key value : Bytes} :
    contents.names.get? key = some value ↔ claimed? contents value = some key := by
  rw [consistent.named, consistent.recorded.claimed?_eq_some_iff]
  constructor
  · rintro ⟨identity, name, owner, stored, claim, same⟩
    exact ⟨identity, name, owner, consistent.completes stored, same, claim⟩
  · rintro ⟨identity, name, owner, complete, same, claim⟩
    exact ⟨identity, name, owner, complete.1, claim, same⟩

/-- Consistent contents need no repair. -/
theorem Consistent.plan_eq (consistent : contents.Consistent) :
    plan contents = ⟨[], [], [], {}⟩ := by
  have payloads : orphanedPayloads contents = [] := by
    refine List.filter_eq_nil_iff.2 fun key member => ?_
    rw [OrderedMap.mem_keys_iff, ← OrderedMap.contains_eq_isSome, consistent.sameKeys] at member
    simpa [Option.isSome_iff_ne_none] using member
  have records : orphanedRecords contents (liveClaims contents) = [] := by
    refine List.filter_eq_nil_iff.2 fun key member => ?_
    rw [OrderedMap.mem_keys_iff] at member
    obtain ⟨record, found⟩ := Option.isSome_iff_exists.1 member
    obtain ⟨identity, name, owner, rfl, described⟩ := consistent.recorded _ _ found
    have complete := consistent.completes ⟨record, found, described⟩
    have claims := consistent.recorded.claimed?_eq_some_iff.2
      ⟨identity, name, owner, complete, rfl, rfl⟩
    simp [lookup_liveClaims, claims]
  have dangling : (contents.names.entries.filter fun entry =>
      !isKept (liveClaims contents) entry) = [] := by
    refine List.filter_eq_nil_iff.2 fun entry member => ?_
    have claims := consistent.get?_names_iff.1 ((contents.names.mem_entries_iff _ _).1 member)
    simp [isKept, lookup_liveClaims, claims]
  have names : repairNames (keptNames contents) (liveClaims contents) = {} := by
    refine repairNames_of_held fun key claim member => ?_
    have claims := mem_liveClaims_iff.1 member
    exact get?_keptNames_iff.2 ⟨consistent.get?_names_iff.2 claims, claims⟩
  show Plan.mk _ _ _ _ = _
  rw [payloads, records, dangling]
  exact congrArg (Plan.mk [] [] []) names

/-- A reconciliation leaves consistent contents as they are. -/
theorem Consistent.reconciled_eq (consistent : contents.Consistent) :
    reconciled contents = contents :=
  reconciled_of_isEmpty (by rw [consistent.plan_eq]; rfl)

end Contents

end Depot
