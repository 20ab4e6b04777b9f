import Depot.Proofs.Bucket.Creation
import Depot.Proofs.Consistency.Repair

/-!
# Records under partial writes

Whatever calls fail, and in either mode, records come from entries and go one by one. So
every record stays that of a stored object, and no two stored objects come to share a name
and an owner unless an object is stored under the name and the owner of another one.
-/

namespace Depot.Contents

variable {before after : Contents} {identity : Uuid} {name : String} {owner : Uuid}
  {metadata : Metadata}

/-- The records of the one contents are among those of the other. -/
def RecordsWithin (after before : Contents) : Prop :=
  ∀ key record, after.records.get? key = some record → before.records.get? key = some record

/-- Where the one has no record, the other has none. -/
theorem RecordsWithin.get?_eq_none {key : Bytes} (within : after.RecordsWithin before)
    (absent : before.records.get? key = none) : after.records.get? key = none := by
  cases found : after.records.get? key with
  | none => rfl
  | some record => exact absurd ((within key record found).symm.trans absent) (by simp)

theorem Recorded.within (recorded : before.Recorded) (within : after.RecordsWithin before) :
    after.Recorded := fun key record found => recorded key record (within key record found)

theorem Stores.within (stored : after.Stores identity name owner)
    (within : after.RecordsWithin before) : before.Stores identity name owner := by
  obtain ⟨record, found, described⟩ := stored
  exact ⟨record, within _ _ found, described⟩

theorem Unshared.within (unshared : before.Unshared) (within : after.RecordsWithin before) :
    after.Unshared := fun _ _ _ _ stored alsoStored =>
  unshared _ _ _ _ (stored.within within) (alsoStored.within within)

theorem recordsWithin_withPayloads (before : Contents) (entries : List Entry) :
    (before.withPayloads entries).RecordsWithin before := fun key record found => by
  rwa [records_withPayloads] at found

/-- A deletion adds no record. -/
theorem Removal.recordsWithin {mode : WriteMode} (removal : before.Removal mode identity after) :
    after.RecordsWithin before := by
  intro key record found
  cases removal with
  | halfway interrupted =>
      cases interrupted with
      | unnamed => rwa [records_withoutName] at found
      | emptied =>
          simp only [withoutPayload, records_withoutName] at found
          exact found
  | whole =>
      simp only [without, withoutRecord, withoutPayload, records_withoutName] at found
      exact (OrderedMap.get?_of_get?_erase found).2

theorem Removals.recordsWithin {mode : WriteMode} (removals : before.Removals mode after) :
    after.RecordsWithin before := by
  induction removals with
  | refl => exact fun _ _ found => found
  | tail _ removal inductionHypothesis =>
      obtain ⟨_, removal⟩ := removal
      exact fun key record found =>
        inductionHypothesis key record (removal.recordsWithin key record found)

/-- A reconciliation adds no record. -/
theorem recordsWithin_reconciled (before : Contents) :
    (Reconciliation.reconciled before).RecordsWithin before := by
  intro key record found
  simp only [Reconciliation.reconciled, OrderedMap.get?_filter, Option.filter_eq_some_iff] at found
  exact found.1

/-- Indexing sound entries adds records of stored objects only. -/
theorem Recorded.indexed {entries : List Entry} {count : Nat} (recorded : before.Recorded)
    (sound : ∀ entry ∈ entries, entry.Sound) (indexed : before.Indexed entries count after) :
    after.Recorded := by
  induction indexed with
  | stopped => exact recorded
  | named => exact recorded
  | next _ _ inductionHypothesis =>
      obtain ⟨soundHere, soundRest⟩ := List.forall_mem_cons.1 sound
      exact inductionHypothesis (Recorded.withRecord recorded soundHere) soundRest

/-- Indexing entries writes the records of those that are indexed completely. -/
theorem Indexed.get?_records {entries : List Entry} {count : Nat} {key : Bytes}
    (indexed : before.Indexed entries count after)
    (others : ∀ entry ∈ entries.take count, entry.key ≠ key) :
    after.records.get? key = before.records.get? key := by
  induction indexed with
  | stopped => rfl
  | named => rfl
  | @next before after entry rest count free indexed inductionHypothesis =>
      rw [List.take_succ_cons] at others
      obtain ⟨apart, othersRest⟩ := List.forall_mem_cons.1 others
      rw [inductionHypothesis othersRest]
      exact OrderedMap.get?_insert_of_ne _ _ apart.symm

/-- An entry's name and owner are those of no other stored object. -/
def Unclaimed (contents : Contents) (entry : Entry) : Prop :=
  ∀ identity name owner, contents.Stores identity name owner →
    nameKey name owner.toText = entry.nameKey → identity = entry.identity

/-- The record of an entry whose name is unclaimed makes no two objects share a name. -/
theorem Unshared.withRecord {entry : Entry} (unshared : before.Unshared) (sound : entry.Sound)
    (unclaimed : before.Unclaimed entry) : (before.withRecord entry).Unshared := by
  obtain ⟨entryOwner, canonical, described⟩ := sound
  have ownKey : nameKey entry.name entryOwner.toText = entry.nameKey := by
    rw [Entry.nameKey, canonical]
  intro identity other name owner stored alsoStored
  rw [stores_withRecord_iff described] at stored alsoStored
  rcases stored with ⟨rfl, rfl, rfl⟩ | ⟨apart, stored⟩
  · rcases alsoStored with ⟨rfl, _⟩ | ⟨apart, alsoStored⟩
    · rfl
    · exact absurd (unclaimed _ _ _ alsoStored ownKey) apart
  · rcases alsoStored with ⟨rfl, rfl, rfl⟩ | ⟨_, alsoStored⟩
    · exact absurd (unclaimed _ _ _ stored ownKey) apart
    · exact unshared _ _ _ _ stored alsoStored

/-- Names stay unclaimed when an entry of another name gets its record. -/
theorem Unclaimed.withRecord {entry later : Entry} (unclaimed : before.Unclaimed later)
    (sound : entry.Sound) (apart : later.nameKey ≠ entry.nameKey) :
    (before.withRecord entry).Unclaimed later := by
  obtain ⟨entryOwner, canonical, described⟩ := sound
  intro identity name owner stored same
  rcases (stores_withRecord_iff described).1 stored with ⟨rfl, rfl, rfl⟩ | ⟨_, stored⟩
  · rw [← canonical] at same
    exact absurd same.symm apart
  · exact unclaimed identity name owner stored same

/-- Indexing entries whose names are unclaimed makes no two objects share a name. -/
theorem Unshared.indexed {entries : List Entry} {count : Nat} (unshared : before.Unshared)
    (sound : ∀ entry ∈ entries, entry.Sound) (distinct : (entries.map Entry.nameKey).Nodup)
    (unclaimed : ∀ entry ∈ entries, before.Unclaimed entry)
    (indexed : before.Indexed entries count after) : after.Unshared := by
  induction indexed with
  | stopped => exact unshared
  | named => exact unshared
  | @next before after entry rest count _ _ inductionHypothesis =>
      obtain ⟨soundHere, soundRest⟩ := List.forall_mem_cons.1 sound
      obtain ⟨once, distinctRest⟩ := List.nodup_cons.1 distinct
      obtain ⟨unclaimedHere, unclaimedRest⟩ := List.forall_mem_cons.1 unclaimed
      have here : (before.withName entry).Unclaimed entry := unclaimedHere
      refine inductionHypothesis (Unshared.withRecord unshared soundHere here) soundRest
        distinctRest fun later member => ?_
      have kept : (before.withName entry).Unclaimed later := unclaimedRest later member
      exact kept.withRecord soundHere fun same => once (List.mem_map.2 ⟨later, member, same⟩)

end Depot.Contents
