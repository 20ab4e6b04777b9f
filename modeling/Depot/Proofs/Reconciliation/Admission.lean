import Depot.Proofs.Bucket.Creation
import Depot.Proofs.Consistency.Repair

/-!
# Reconciliations that succeed

A plan removes keys that are bound and writes names that objects claim. Engines refuse the
empty key and keys beyond some length, so an engine that takes the keys of all names within
the limit does every write of a plan, provided that nothing is bound to the empty key. Where
no call is refused, a reconciliation then succeeds.
-/

namespace Depot

/-- An engine takes the keys of all names within the limit. -/
def KeyRule.TakesNames (rule : KeyRule) : Prop :=
  ∀ (name : String) (owner : Uuid), name.utf8ByteSize ≤ Object.nameLimit →
    rule.admitsBinding (nameKey name owner.toText) = true

theorem KeyRule.takesNames_unrestricted : KeyRule.unrestricted.TakesNames := fun _ _ _ => rfl

/-- A text has four bytes a character at most. -/
theorem Utf8.length_encode_le (text : String) :
    (Utf8.encode text).length ≤ 4 * text.toList.length := by
  unfold Utf8.encode
  induction text.toList with
  | nil => simp
  | cons character rest inductionHypothesis =>
      have here := character.utf8Size_le_four
      simp only [List.flatMap_cons, List.length_append, String.length_utf8EncodeChar,
        List.length_cons]
      omega

/-- The limit on names keeps their keys within the pages of an engine on disk, whatever the
spelling of the owner. -/
theorem KeyRule.admitsBinding_pageBound_nameKey {name owner : String}
    (short : name.utf8ByteSize ≤ Object.nameLimit) (spelled : owner.toList.length ≤ 45) :
    KeyRule.pageBound.admitsBinding (nameKey name owner) = true := by
  have separated : (Utf8.encode nameSeparator).length = 1 := by decide
  have identifier := Utf8.length_encode_le owner
  have size : (nameKey name owner).length ≤ 511 := by
    simp only [nameKey, Utf8.encode_append, List.length_append, separated]
    rw [Utf8.length_encode name]
    unfold Object.nameLimit at short
    omega
  have looked := KeyRule.pageBound.admitsLookup_of_ne_nil (nameKey_ne_nil name owner)
  rw [admitsBinding, looked]
  exact decide_eq_true size

theorem KeyRule.takesNames_pageBound : KeyRule.pageBound.TakesNames := fun name owner short =>
  admitsBinding_pageBound_nameKey short (by simp)

namespace Contents

variable {before after contents : Contents} {entry : Entry} {identity : Uuid}
  {metadata : Metadata}

/-- Nothing is bound to the empty key. -/
def Keyed (contents : Contents) : Prop := ∀ region, contents.get? region [] = none

theorem Keyed.insert (keyed : before.Keyed) (region : Region) {key : Bytes} (present : key ≠ [])
    (value : Bytes) : (before.update region (·.insert key value)).Keyed := by
  intro other
  rw [get?_update]
  split
  · exact (OrderedMap.get?_insert_of_ne _ _ present.symm).trans (keyed region)
  · exact keyed other

theorem Keyed.erase (keyed : before.Keyed) (region : Region) (key : Bytes) :
    (before.update region (·.erase key)).Keyed := by
  intro other
  rw [get?_update]
  split
  · rw [OrderedMap.get?_erase_eq]
    exact ite_eq_left_iff.2 fun _ => keyed region
  · exact keyed other

/-- Entries have keys, so writing them binds nothing to the empty key. -/
theorem Keyed.withPayloads (keyed : before.Keyed) (entries : List Entry) :
    (before.withPayloads entries).Keyed := by
  induction entries generalizing before with
  | nil => exact keyed
  | cons entry rest inductionHypothesis =>
      exact inductionHypothesis (keyed.insert .payload entry.identity.key_ne_nil entry.payload)

theorem Keyed.indexed {entries : List Entry} {count : Nat} (keyed : before.Keyed)
    (indexed : before.Indexed entries count after) : after.Keyed := by
  have named : ∀ {contents : Contents} (entry : Entry), contents.Keyed →
      (contents.withName entry).Keyed := fun entry keyed =>
    keyed.insert .name (nameKey_ne_nil entry.name entry.owner) entry.key
  induction indexed with
  | stopped => exact keyed
  | named => exact named _ keyed
  | @next before after entry rest count _ _ inductionHypothesis =>
      exact inductionHypothesis
        ((named entry keyed).insert .metadata entry.identity.key_ne_nil entry.record)

theorem Keyed.created {bucket : Bucket} {objects : List Object} {count : Nat}
    (keyed : before.Keyed) (created : before.Created bucket objects count after) :
    after.Keyed := by
  rcases created.indexed with ⟨_, rfl⟩ | ⟨_, _, indexed⟩
  · exact keyed
  · exact (keyed.withPayloads _).indexed indexed

theorem Keyed.withoutName (keyed : before.Keyed) (identity : Uuid) (metadata : Metadata) :
    (before.withoutName identity metadata).Keyed := by
  unfold Contents.withoutName
  split
  · exact keyed
  · split
    · exact keyed.erase .name _
    · exact keyed

theorem Keyed.removals {mode : WriteMode} (keyed : before.Keyed)
    (removals : before.Removals mode after) : after.Keyed := by
  induction removals with
  | refl => exact keyed
  | tail _ removal inductionHypothesis =>
      obtain ⟨identity, removal⟩ := removal
      cases removal with
      | halfway interrupted =>
          cases interrupted with
          | unnamed => exact inductionHypothesis.withoutName identity _
          | emptied => exact (inductionHypothesis.withoutName identity _).erase .payload _
      | whole =>
          exact ((inductionHypothesis.withoutName identity _).erase .payload _).erase .metadata _

/-- Consistent contents bind nothing to the empty key. -/
theorem Consistent.keyed (consistent : contents.Consistent) : contents.Keyed := by
  have unrecorded : contents.records.get? [] = none := by
    cases found : contents.records.get? [] with
    | none => rfl
    | some record =>
        obtain ⟨identity, _, _, same, _⟩ := consistent.recorded _ _ found
        exact absurd same identity.key_ne_nil
  intro region
  cases region with
  | metadata => exact unrecorded
  | payload =>
      have same := consistent.sameKeys []
      simp only [OrderedMap.contains_eq_isSome, unrecorded] at same
      exact Option.isNone_iff_eq_none.1 (Option.isSome_eq_false_iff.1 same)
  | name =>
      show contents.names.get? [] = none
      cases found : contents.names.get? [] with
      | none => rfl
      | some holder =>
          obtain ⟨_, name, owner, _, same, _⟩ := (consistent.named _ _).1 found
          exact absurd same (nameKey_ne_nil name owner.toText)

end Contents

namespace Reconciliation

/-- What is restored is claimed. -/
theorem mem_claims_of_mem_restored {held : OrderedMap Bytes Bytes} {claims : List (Bytes × Bytes)}
    {key identity : Bytes} (member : (key, identity) ∈ (repairNames held claims).restored) :
    (identity, key) ∈ claims := by
  induction claims generalizing held with
  | nil => exact absurd member List.not_mem_nil
  | cons claim rest inductionHypothesis =>
      obtain ⟨other, wanted⟩ := claim
      rw [repairNames] at member
      split at member
      · dsimp only at member
        split at member
        · exact List.mem_cons_of_mem _ (inductionHypothesis member)
        · exact List.mem_cons_of_mem _ (inductionHypothesis member)
      · rcases List.mem_cons.1 member with same | later
        · obtain ⟨rfl, rfl⟩ := Prod.mk.inj same
          exact List.mem_cons_self
        · exact List.mem_cons_of_mem _ (inductionHypothesis later)

variable {rule : KeyRule} {contents : Contents}

/-- An engine that takes names refuses no write of a plan. -/
theorem sure_of_mem_plan (takes : rule.TakesNames) (recorded : contents.Recorded)
    (keyed : contents.Keyed) :
    ∀ write ∈ (plan contents).batch.writes, rule.IsSure write := by
  have bound : ∀ {region : Region} {key : Bytes}, (contents.get? region key).isSome = true →
      rule.admitsLookup key = true := by
    intro region key found
    refine rule.admitsLookup_of_ne_nil fun empty => ?_
    rw [empty, keyed region] at found
    exact absurd found (by simp)
  intro write member
  simp only [Plan.batch, List.mem_append, List.mem_map, List.mem_flatMap, List.mem_cons,
    List.not_mem_nil, or_false] at member
  rcases member with ((⟨key, orphan, rfl⟩ | ⟨key, orphan, written⟩) | ⟨key, dangling, rfl⟩) |
    ⟨⟨key, identity⟩, restored, rfl⟩
  · exact @bound .payload key ((OrderedMap.mem_keys_iff _ _).1 (List.mem_filter.1 orphan).1)
  · have admitted : rule.admitsLookup key = true :=
      @bound .metadata key ((OrderedMap.mem_keys_iff _ _).1 (List.mem_filter.1 orphan).1)
    rcases written with rfl | rfl
    · exact admitted
    · exact admitted
  · obtain ⟨⟨_, holder⟩, entry, rfl⟩ := List.mem_map.1 dangling
    have found := (contents.names.mem_entries_iff _ _).1 (List.mem_filter.1 entry).1
    exact @bound .name _ (Option.isSome_iff_exists.2 ⟨holder, found⟩)
  · have claims := mem_liveClaims_iff.1 (mem_claims_of_mem_restored restored)
    obtain ⟨_, name, owner, complete, _, rfl⟩ := recorded.claimed?_eq_some_iff.1 claims
    exact takes name owner complete.1.short

/-- Where no call is refused, a reconciliation succeeds. -/
theorem leads_reconcile_ok {bucket : Bucket} (takes : rule.TakesNames)
    (recorded : contents.Recorded) (keyed : contents.Keyed) :
    Leads (.reliable rule) bucket.reconcile.run contents fun result after =>
      (∃ report, result = .ok report) ∧ after = reconciled contents := by
  refine leads_reconcile.mono fun result after ends => ?_
  cases result with
  | ok report => exact ⟨⟨report, rfl⟩, ends.1⟩
  | error error =>
      rcases ends.2 with may | refused
      · exact may.elim
      · have done := @Contents.applyAll_of_sure rule contents _
          (sure_of_mem_plan takes recorded keyed)
        exact absurd (done.symm.trans refused) (by simp)

end Reconciliation

end Depot
