import Depot.Proofs.Consistency.Names
import Depot.Proofs.Reconciliation.Specification

/-!
# What is kept of an object

An object is kept if its content, its record and its name are there and no other name leads
to its identity. It comes to be kept when it is stored for the first time, and it stays so
whatever is stored under other identities, whatever is removed of other objects, and when the
regions are reconciled. Names that lead elsewhere and records of other identities may be in
any state.
-/

namespace Depot.Contents

open Reconciliation

variable {before after : Contents} {identity : Uuid} {metadata : Metadata} {object : Object}
  {entry : Entry}
  {entries front back : List Entry} {count : Nat} {targets : List Uuid} {mode : WriteMode}

/-- An identity is unknown: it has no record, and no name leads to it. -/
structure Unknown (contents : Contents) (identity : Uuid) : Prop where
  unrecorded : contents.records.get? identity.key = none
  unnamed : ∀ key holder, contents.names.get? key = some holder → Uuid.ofKey holder ≠ .ok identity

/-- All of an entry is there, and only its own name leads to its identity. -/
structure Keeps (contents : Contents) (entry : Entry) : Prop where
  payload : contents.payloads.get? entry.key = some entry.payload
  record : contents.records.get? entry.key = some entry.record
  name : contents.names.get? entry.nameKey = some entry.key
  only : ∀ key holder, contents.names.get? key = some holder →
    Uuid.ofKey holder = .ok entry.identity → key = entry.nameKey

/-! ## Objects that are stored -/

/-- An identity stays unknown when names and records are removed. -/
theorem Unknown.within (unknown : before.Unknown identity) (names : after.NamesWithin before)
    (records : after.RecordsWithin before) : after.Unknown identity where
  unrecorded := records.get?_eq_none unknown.unrecorded
  unnamed key holder found := unknown.unnamed key holder (names key holder found)

theorem Unknown.withPayloads (unknown : before.Unknown identity) (entries : List Entry) :
    (before.withPayloads entries).Unknown identity :=
  unknown.within (fun key holder found => by rwa [names_withPayloads] at found)
    (recordsWithin_withPayloads before entries)

/-- The name of an entry leads to the entry's identity and to no other. -/
theorem Unknown.withName (unknown : before.Unknown identity) (apart : entry.identity ≠ identity) :
    (before.withName entry).Unknown identity := by
  refine ⟨unknown.unrecorded, fun key holder found => ?_⟩
  simp only [Contents.withName, OrderedMap.get?_insert_eq] at found
  split at found
  · rw [← Option.some.inj found, Entry.key, Uuid.ofKey_key]
    exact fun same => apart (Except.ok.inj same)
  · exact unknown.unnamed key holder found

theorem Unknown.withRecord (unknown : before.Unknown identity) (apart : entry.identity ≠ identity) :
    (before.withRecord entry).Unknown identity := by
  refine ⟨(OrderedMap.get?_insert_of_ne _ _ fun same => ?_).trans unknown.unrecorded,
    unknown.unnamed⟩
  exact apart (Uuid.key_injective same).symm

/-- Storing other objects leaves an identity unknown. -/
theorem Unknown.indexed (unknown : before.Unknown identity)
    (others : ∀ other ∈ entries, other.identity ≠ identity)
    (indexed : before.Indexed entries count after) : after.Unknown identity := by
  induction indexed with
  | stopped => exact unknown
  | named => exact unknown.withName (List.forall_mem_cons.1 others).1
  | next _ _ inductionHypothesis =>
      obtain ⟨apart, othersRest⟩ := List.forall_mem_cons.1 others
      exact inductionHypothesis ((unknown.withName apart).withRecord apart) othersRest

theorem Keeps.withPayloads (keeps : before.Keeps entry)
    (others : ∀ other ∈ entries, other.identity ≠ entry.identity) :
    (before.withPayloads entries).Keeps entry := by
  refine ⟨?_, ?_, ?_, fun key holder found => keeps.only key holder ?_⟩
  · refine (get?_payloads_withPayloads_of_ne fun other member same => ?_).trans keeps.payload
    exact others other member (Uuid.key_injective same)
  · rw [records_withPayloads]
    exact keeps.record
  · rw [names_withPayloads]
    exact keeps.name
  · rwa [names_withPayloads] at found

/-- A name that is written was free, so it is not the one that is kept. -/
theorem Keeps.withName {other : Entry} (keeps : before.Keeps entry)
    (free : before.names.get? other.nameKey = none) (apart : other.identity ≠ entry.identity) :
    (before.withName other).Keeps entry := by
  refine { keeps with name := ?_, only := fun key holder found leads => ?_ }
  · refine (OrderedMap.get?_insert_of_ne _ _ fun same => ?_).trans keeps.name
    rw [← same, keeps.name] at free
    exact absurd free (by simp)
  · simp only [Contents.withName, OrderedMap.get?_insert_eq] at found
    split at found
    · rw [← Option.some.inj found, Entry.key, Uuid.ofKey_key] at leads
      exact absurd (Except.ok.inj leads) apart
    · exact keeps.only key holder found leads

theorem Keeps.withRecord {other : Entry} (keeps : before.Keeps entry)
    (apart : other.identity ≠ entry.identity) : (before.withRecord other).Keeps entry := by
  refine { keeps with
    record := (OrderedMap.get?_insert_of_ne _ _ fun same => ?_).trans keeps.record }
  exact apart (Uuid.key_injective same).symm

/-- Indexing other objects keeps what is kept. -/
theorem Keeps.indexed (keeps : before.Keeps entry)
    (others : ∀ other ∈ entries, other.identity ≠ entry.identity)
    (indexed : before.Indexed entries count after) : after.Keeps entry := by
  induction indexed with
  | stopped => exact keeps
  | named free => exact keeps.withName free (List.forall_mem_cons.1 others).1
  | next free _ inductionHypothesis =>
      obtain ⟨apart, othersRest⟩ := List.forall_mem_cons.1 others
      exact inductionHypothesis ((keeps.withName free apart).withRecord apart) othersRest

/-- An entry whose identity is unknown is kept once it is written completely. -/
theorem Unknown.keeps_index (unknown : before.Unknown entry.identity)
    (paid : before.payloads.get? entry.key = some entry.payload) :
    ((before.withName entry).withRecord entry).Keeps entry where
  payload := paid
  record := OrderedMap.get?_insert_self _ _ _
  name := OrderedMap.get?_insert_self _ _ _
  only key holder found leads := by
    simp only [Contents.withRecord, Contents.withName, OrderedMap.get?_insert_eq] at found
    split at found
    · assumption
    · exact absurd leads (unknown.unnamed key holder found)

/-- An entry whose identity is unknown is kept once entries are indexed up to it, if no other
one has its identity. -/
theorem Unknown.keeps_of_indexed (unknown : before.Unknown entry.identity)
    (paid : before.payloads.get? entry.key = some entry.payload)
    (others : ∀ other ∈ front ++ back, other.identity ≠ entry.identity)
    (indexed : before.Indexed (front ++ entry :: back) count after)
    (reached : front.length < count) : after.Keeps entry := by
  induction front generalizing before count with
  | nil =>
      cases indexed with
      | stopped => exact absurd reached (Nat.not_lt_zero _)
      | named => exact absurd reached (Nat.not_lt_zero _)
      | next _ tail => exact (unknown.keeps_index paid).indexed others tail
  | cons first rest inductionHypothesis =>
      obtain ⟨apart, othersRest⟩ := List.forall_mem_cons.1 others
      cases indexed with
      | stopped => exact absurd reached (Nat.not_lt_zero _)
      | named => exact absurd reached (Nat.not_lt_zero _)
      | next _ tail =>
          exact inductionHypothesis ((unknown.withName apart).withRecord apart) paid othersRest tail
            (Nat.lt_of_succ_lt_succ reached)

/-! ## Objects that are removed -/

theorem Keeps.withoutName (keeps : before.Keeps entry) (apart : identity ≠ entry.identity) :
    (before.withoutName identity metadata).Keeps entry := by
  unfold Contents.withoutName
  split
  · exact keeps
  · split
    · -- the name that is removed leads to another identity
      rename_i key _ leads
      refine { keeps with name := ?_, only := fun other holder found => ?_ }
      · refine (OrderedMap.get?_erase_of_ne _ fun same => apart ?_).trans keeps.name
        rw [← same, keeps.name] at leads
        exact (Uuid.key_injective (Option.some.inj leads)).symm
      · exact keeps.only other holder (OrderedMap.get?_of_get?_erase found).2
    · exact keeps

theorem Keeps.withoutPayload (keeps : before.Keeps entry) (apart : identity ≠ entry.identity) :
    (before.withoutPayload identity).Keeps entry := by
  refine { keeps with
    payload := (OrderedMap.get?_erase_of_ne _ fun same => ?_).trans keeps.payload }
  exact apart (Uuid.key_injective same).symm

theorem Keeps.withoutRecord (keeps : before.Keeps entry) (apart : identity ≠ entry.identity) :
    (before.withoutRecord identity).Keeps entry := by
  refine { keeps with
    record := (OrderedMap.get?_erase_of_ne _ fun same => ?_).trans keeps.record }
  exact apart (Uuid.key_injective same).symm

/-- Deleting other objects keeps what is kept, also if the last deletion is cut short. -/
theorem Keeps.pruned (keeps : before.Keeps entry) (spared : entry.identity ∉ targets)
    (pruned : before.Pruned mode targets after) : after.Keeps entry := by
  have apart : ∀ {identity}, identity ∈ targets → identity ≠ entry.identity := by
    rintro identity member rfl
    exact spared member
  obtain ⟨between, cleared, left⟩ := pruned
  have keepsBetween : between.Keeps entry := by
    clear left
    induction cleared with
    | refl => exact keeps
    | tail _ clears inductionHypothesis =>
        obtain ⟨identity, member, metadata, _, rfl⟩ := clears
        have unnamed : (_ : Contents).Keeps entry :=
          @Keeps.withoutName _ identity metadata _ inductionHypothesis (apart member)
        exact (unnamed.withoutPayload (apart member)).withoutRecord (apart member)
  rcases left with rfl | ⟨identity, member, interrupted⟩
  · exact keepsBetween
  · cases interrupted with
    | unnamed => exact keepsBetween.withoutName (apart member)
    | emptied => exact (keepsBetween.withoutName (apart member)).withoutPayload (apart member)

/-- Deletions leave an unknown identity unknown. -/
theorem Unknown.removals (unknown : before.Unknown identity)
    (removals : before.Removals mode after) : after.Unknown identity := by
  induction removals with
  | refl => exact unknown
  | tail _ removal inductionHypothesis =>
      obtain ⟨_, removal⟩ := removal
      exact inductionHypothesis.within removal.namesWithin removal.recordsWithin

/-! ## Reconciliations -/

/-- After a reconciliation, an identity that a name leads to claims the name. -/
theorem Recorded.claims_of_ofKey {key holder : Bytes} (recorded : before.Recorded)
    (found : (reconciled before).names.get? key = some holder)
    (leads : Uuid.ofKey holder = .ok identity) : Claims before identity.key key := by
  obtain ⟨claims, _⟩ := ((restores_reconciled before).names key holder).1 found
  -- who claims a name has a record, so the holder is the key of an identity
  obtain ⟨_, record, _, _, _, held, _⟩ := id claims
  obtain ⟨other, _, _, rfl, _⟩ := recorded holder record held
  rw [Uuid.ofKey_key] at leads
  obtain rfl := Except.ok.inj leads
  exact claims

/-- A reconciliation leaves an unknown identity unknown. -/
theorem Unknown.reconciled (unknown : before.Unknown identity) (recorded : before.Recorded) :
    (reconciled before).Unknown identity where
  unrecorded := (recordsWithin_reconciled before).get?_eq_none unknown.unrecorded
  unnamed key holder found leads := by
    obtain ⟨_, record, _, _, _, held, _⟩ := recorded.claims_of_ofKey found leads
    exact absurd (held.symm.trans unknown.unrecorded) (by simp)

/-- Who is kept claims the own name and no other. -/
theorem Keeps.claims_iff (keeps : before.Keeps entry) (recorded : before.Recorded)
    (sound : entry.Sound) {key : Bytes} : Claims before entry.key key ↔ key = entry.nameKey := by
  obtain ⟨owner, canonical, stored⟩ := Stores.of_sound sound keeps.record
  have present : before.payloads.contains entry.key = true := by
    rw [OrderedMap.contains_eq_isSome, keeps.payload]
    rfl
  have claimed : claimed? before entry.key = some entry.nameKey := by
    refine recorded.claimed?_eq_some_iff.2 ⟨_, _, owner, ⟨stored, present⟩, rfl, ?_⟩
    rw [Entry.nameKey, canonical]
  rw [Reconciliation.claims_iff, claimed, Option.some_inj, eq_comm]

/-- A reconciliation keeps what is kept. -/
theorem Keeps.reconciled (keeps : before.Keeps entry) (recorded : before.Recorded)
    (sound : entry.Sound) : (reconciled before).Keeps entry := by
  have restores := restores_reconciled before
  have claims := (keeps.claims_iff recorded sound).2 rfl
  refine ⟨?_, ?_, ?_, fun key holder found leads => ?_⟩
  · exact (restores.payloads _ _).2 ⟨keeps.payload, _, claims⟩
  · exact (restores.records _ _).2 ⟨keeps.record, _, claims⟩
  · exact (restores.names _ _).2 ⟨claims, .inl keeps.name⟩
  · exact (keeps.claims_iff recorded sound).1 (recorded.claims_of_ofKey found leads)

/-! ## What is found of an object -/

/-- All of what is kept is there. -/
theorem Keeps.has (keeps : before.Keeps entry) : before.Has entry :=
  ⟨keeps.payload, keeps.record, keeps.name⟩

/-- No name and owner lead to an object that is kept but its own. -/
theorem Keeps.eq_of_resolved {name owner : String} (keeps : before.Keeps object.entry)
    (sound : object.entry.Sound) (leads : before.resolved name owner = .ok object.identity) :
    name = object.name ∧ Uuid.canonicalise owner = object.owner := by
  obtain ⟨ownerUuid, key, parsed, _, held, read⟩ := resolved_eq_ok_iff.1 leads
  obtain ⟨entryOwner, canonical, _⟩ := sound
  have own := keeps.only _ key held read
  rw [Entry.nameKey, canonical] at own
  obtain ⟨sameName, sameOwner⟩ := nameKey_injective own
  refine ⟨sameName, ?_⟩
  rw [Uuid.canonicalise, parsed, sameOwner]
  exact canonical.symm

end Depot.Contents
