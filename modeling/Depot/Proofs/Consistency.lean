import Depot.Proofs.Bucket.Deletion
import Depot.Proofs.Bucket.Entry

/-!
# Consistent contents

Contents store an object if the record of its identity describes it. They are
consistent if content and records have the same keys, every record is that of a stored
object, and the names are exactly those of the stored objects. An entry that is written
under a free name and a new identity keeps contents consistent, and so does removing an
object completely. What lies between the commits of the independent mode is not
consistent and is not the subject of this module.
-/

namespace Depot

namespace Metadata

variable {metadata : Metadata} {identity : Uuid} {name : String} {owner : Uuid}

/-- A bag that describes an object claims the object's name. -/
theorem Describes.claimedName (describes : metadata.Describes identity name owner) :
    Bucket.claimedName metadata = some (nameKey name owner.toText) := by
  simp only [Bucket.claimedName, describes.hasName, describes.hasOwner]

end Metadata

namespace Contents

/-- The contents store an object of this identity, name and owner. -/
def Stores (contents : Contents) (identity : Uuid) (name : String) (owner : Uuid) : Prop :=
  ∃ record, contents.records.get? identity.key = some record ∧ RecordOf record identity name owner

/-- Every record is that of a stored object. -/
def Recorded (contents : Contents) : Prop :=
  ∀ key record, contents.records.get? key = some record →
    ∃ identity name owner, identity.key = key ∧ RecordOf record identity name owner

/-- What is recorded for an identity, if anything is, is the record of a stored object. -/
def RecordedAt (contents : Contents) (identity : Uuid) : Prop :=
  ∀ record, contents.records.get? identity.key = some record →
    ∃ name owner, RecordOf record identity name owner

/-- No two stored objects have the same name and owner. -/
def Unshared (contents : Contents) : Prop :=
  ∀ identity other name owner, contents.Stores identity name owner →
    contents.Stores other name owner → identity = other

/-- The regions agree with each other. -/
structure Consistent (contents : Contents) : Prop where
  sameKeys : ∀ key, contents.payloads.contains key = contents.records.contains key
  recorded : contents.Recorded
  named : ∀ key value, contents.names.get? key = some value ↔
    ∃ identity name owner, contents.Stores identity name owner ∧
      nameKey name owner.toText = key ∧ identity.key = value

variable {contents : Contents} {identity other : Uuid} {name : String} {owner : Uuid}
  {metadata : Metadata} {entry : Entry}

/-- A stored object has one name and one owner. -/
theorem Stores.unique {otherName : String} {otherOwner : Uuid}
    (stores : contents.Stores identity name owner)
    (again : contents.Stores identity otherName otherOwner) :
    name = otherName ∧ owner = otherOwner := by
  obtain ⟨record, found, describes⟩ := stores
  obtain ⟨_, foundAgain, describesAgain⟩ := again
  obtain rfl := Option.some.inj (found.symm.trans foundAgain)
  exact (describes.unique describesAgain).2

theorem Stores.short (stores : contents.Stores identity name owner) :
    name.utf8ByteSize ≤ Object.nameLimit := by
  obtain ⟨_, _, _, _, describes⟩ := stores
  exact describes.short

/-- A sound entry whose record is there is that of a stored object. -/
theorem Stores.of_sound (sound : entry.Sound)
    (found : contents.records.get? entry.key = some entry.record) :
    ∃ owner : Uuid, entry.owner = owner.toText ∧
      contents.Stores entry.identity entry.name owner := by
  obtain ⟨owner, canonical, described⟩ := sound
  exact ⟨owner, canonical, entry.record, found, described⟩

/-- Consistent contents store one object of a name and an owner at most. -/
theorem Consistent.unshared (consistent : contents.Consistent) : contents.Unshared := by
  intro identity other name owner stores alsoStores
  have first := (consistent.named _ _).2 ⟨_, _, _, stores, rfl, rfl⟩
  have second := (consistent.named _ _).2 ⟨_, _, _, alsoStores, rfl, rfl⟩
  exact Uuid.key_injective (Option.some.inj (first.symm.trans second))

/-- Empty contents are consistent. -/
theorem consistent_empty : ({} : Contents).Consistent where
  sameKeys _ := rfl
  recorded _ _ found := absurd found (by simp)
  named key value := by
    constructor
    · exact fun found => absurd found (by simp)
    · rintro ⟨_, _, _, ⟨_, found, _⟩, _⟩
      exact absurd found (by simp)

theorem Recorded.recordedAt (recorded : contents.Recorded) (identity : Uuid) :
    contents.RecordedAt identity := by
  intro record found
  obtain ⟨own, name, owner, same, described⟩ := recorded _ _ found
  obtain rfl := Uuid.key_injective same
  exact ⟨name, owner, described⟩

/-- The metadata found for an identity describes the object that is stored. -/
theorem RecordedAt.describes (recordedAt : contents.RecordedAt identity)
    (found : contents.metadataOf identity = .ok metadata) :
    ∃ name owner, metadata.Describes identity name owner ∧ contents.Stores identity name owner := by
  obtain ⟨record, held, read⟩ := metadataOf_eq_ok_iff.1 found
  obtain ⟨name, owner, _, readAgain, describes⟩ := recordedAt record held
  obtain rfl := Except.ok.inj (readAgain.symm.trans read)
  exact ⟨name, owner, describes, record, held, _, read, describes⟩

theorem Recorded.describes (recorded : contents.Recorded)
    (found : contents.metadataOf identity = .ok metadata) :
    ∃ name owner, metadata.Describes identity name owner ∧ contents.Stores identity name owner :=
  (recorded.recordedAt identity).describes found

/-! ## Records -/

/-- With an entry's record, the entry's object is stored, and others as before. -/
theorem stores_withRecord_iff {entryOwner : Uuid}
    (described : RecordOf entry.record entry.identity entry.name entryOwner) :
    (contents.withRecord entry).Stores identity name owner ↔
      identity = entry.identity ∧ name = entry.name ∧ owner = entryOwner ∨
        identity ≠ entry.identity ∧ contents.Stores identity name owner := by
  unfold Stores withRecord Entry.key
  simp only [OrderedMap.get?_insert_eq]
  by_cases same : identity = entry.identity
  · subst same
    simp only [if_true, Option.some.injEq, exists_eq_left', true_and, ne_eq, not_true_eq_false,
      false_and, or_false]
    constructor
    · exact fun again => (again.unique described).2
    · rintro ⟨rfl, rfl⟩
      exact described
  · have apart : identity.key ≠ entry.identity.key := fun equal => same (Uuid.key_injective equal)
    simp [same, apart]

/-- Without a record, the other objects are stored as before. -/
theorem stores_withoutRecord_iff :
    (contents.withoutRecord other).Stores identity name owner ↔
      identity ≠ other ∧ contents.Stores identity name owner := by
  unfold Stores withoutRecord
  simp only [OrderedMap.get?_erase_eq]
  by_cases same : identity = other
  · simp [same]
  · have apart : identity.key ≠ other.key := fun equal => same (Uuid.key_injective equal)
    simp [same, apart]

/-- A sound entry's record is that of a stored object. -/
theorem Recorded.withRecord (recorded : contents.Recorded) (sound : entry.Sound) :
    (contents.withRecord entry).Recorded := by
  obtain ⟨owner, _, described⟩ := sound
  intro key record found
  simp only [Contents.withRecord, OrderedMap.get?_insert_eq] at found
  split at found
  · rename_i same
    obtain rfl := Option.some.inj found
    exact ⟨entry.identity, entry.name, owner, same.symm, described⟩
  · exact recorded key record found

/-! ## Names -/

@[simp] theorem records_withoutName :
    (contents.withoutName identity metadata).records = contents.records := by
  unfold withoutName
  split
  · rfl
  · split <;> rfl

@[simp] theorem payloads_withoutName :
    (contents.withoutName identity metadata).payloads = contents.payloads := by
  unfold withoutName
  split
  · rfl
  · split <;> rfl

/-- A name is removed if metadata claims it and it leads to the identity, and other names
stay. -/
theorem get?_withoutName_eq_some_iff {key value : Bytes} :
    (contents.withoutName identity metadata).names.get? key = some value ↔
      contents.names.get? key = some value ∧
        ¬ (Bucket.claimedName metadata = some key ∧ identity.key = value) := by
  unfold withoutName
  cases claimed : Bucket.claimedName metadata with
  | none => simp
  | some own =>
      dsimp only
      split
      · rename_i leads
        rw [OrderedMap.get?_erase_eq_some_iff]
        refine and_congr_right fun found => not_congr ?_
        constructor
        · rintro rfl
          exact ⟨rfl, Option.some.inj (leads.symm.trans found)⟩
        · exact fun both => (Option.some.inj both.1).symm
      · rename_i elsewhere
        refine (and_iff_left_of_imp fun found => ?_).symm
        rintro ⟨same, rfl⟩
        obtain rfl := Option.some.inj same
        exact elsewhere found

/-- The name of an object is removed if it leads to the object, and other names stay. -/
theorem get?_withoutName_iff (describes : metadata.Describes identity name owner)
    {key value : Bytes} :
    (contents.withoutName identity metadata).names.get? key = some value ↔
      contents.names.get? key = some value ∧
        ¬ (nameKey name owner.toText = key ∧ identity.key = value) := by
  rw [get?_withoutName_eq_some_iff, describes.claimedName, Option.some.injEq]

/-- What belongs to an identity with this metadata: its content, its record, and the name that the
metadata gives together with an owner, while it leads to the identity. -/
def Belongs (identity : Uuid) (metadata : Metadata) (region : Region) (key value : Bytes) : Prop :=
  match region with
  | .payload | .metadata => key = identity.key
  | .name => value = identity.key ∧ ∃ name owner,
      metadata.get? Metadata.Key.name.text = some name ∧
        metadata.get? Metadata.Key.owner.text = some owner ∧ key = nameKey name owner

/-- Metadata claims the key of its name and its owner, if it has both. -/
theorem claimedName_eq_some_iff {key : Bytes} :
    Bucket.claimedName metadata = some key ↔ ∃ name owner,
      metadata.get? Metadata.Key.name.text = some name ∧
        metadata.get? Metadata.Key.owner.text = some owner ∧ key = nameKey name owner := by
  unfold Bucket.claimedName
  cases metadata.get? Metadata.Key.name.text with
  | none => simp
  | some name =>
      cases metadata.get? Metadata.Key.owner.text with
      | none => simp
      | some owner => simp [eq_comm]

/-- Without an object, what belongs to it is gone and everything else stays. -/
theorem get?_without_iff {region : Region} {key value : Bytes} :
    (contents.without identity metadata).get? region key = some value ↔
      contents.get? region key = some value ∧ ¬ Belongs identity metadata region key value := by
  cases region with
  | payload =>
      show ((contents.withoutName identity metadata).payloads.erase identity.key).get? key = _ ↔ _
      rw [payloads_withoutName]
      exact OrderedMap.get?_erase_eq_some_iff
  | name =>
      show (contents.withoutName identity metadata).names.get? key = _ ↔ _
      rw [get?_withoutName_eq_some_iff, claimedName_eq_some_iff,
        and_comm (b := identity.key = value), eq_comm (a := identity.key)]
      rfl
  | metadata =>
      show ((contents.withoutName identity metadata).records.erase identity.key).get? key = _ ↔ _
      rw [records_withoutName]
      exact OrderedMap.get?_erase_eq_some_iff

/-! ## Whole entries and whole objects -/

/-- With a whole entry, the entry's object is stored, and others as before. -/
theorem stores_withEntry_iff {entryOwner : Uuid}
    (described : RecordOf entry.record entry.identity entry.name entryOwner) :
    (contents.withEntry entry).Stores identity name owner ↔
      identity = entry.identity ∧ name = entry.name ∧ owner = entryOwner ∨
        identity ≠ entry.identity ∧ contents.Stores identity name owner :=
  stores_withRecord_iff described

/-- Without an object, the others are stored as before. -/
theorem stores_without_iff :
    (contents.without other metadata).Stores identity name owner ↔
      identity ≠ other ∧ contents.Stores identity name owner := by
  refine stores_withoutRecord_iff.trans (and_congr_right fun _ => ?_)
  show (∃ record, (contents.withoutName other metadata).records.get? identity.key = _ ∧ _) ↔ _
  rw [records_withoutName]
  rfl

/-- A new entry under a free name keeps contents consistent. -/
theorem Consistent.withEntry (consistent : contents.Consistent) (sound : entry.Sound)
    (free : contents.names.get? entry.nameKey = none)
    (new : contents.records.get? entry.key = none) : (contents.withEntry entry).Consistent := by
  obtain ⟨owner, canonical, described⟩ := id sound
  have ownKey : entry.nameKey = nameKey entry.name owner.toText := by
    rw [Entry.nameKey, canonical]
  -- what was stored before has other identities, so its records are not overwritten
  have kept : ∀ {identity name owner}, contents.Stores identity name owner →
      identity ≠ entry.identity := by
    rintro identity name owner ⟨record, found, _⟩ rfl
    exact absurd (found.symm.trans new) (by simp)
  refine ⟨fun key => ?_, consistent.recorded.withRecord sound, fun key value => ?_⟩
  · have same := consistent.sameKeys key
    simp only [OrderedMap.contains_eq_isSome] at same
    simp only [Contents.withEntry, withPayload, withName, withRecord,
      OrderedMap.contains_eq_isSome, OrderedMap.get?_insert_eq]
    split
    · rfl
    · exact same
  · simp only [stores_withEntry_iff described]
    show (contents.names.insert entry.nameKey entry.key).get? key = some value ↔ _
    rw [OrderedMap.get?_insert_eq]
    split
    · rename_i own
      subst own
      constructor
      · intro found
        obtain rfl := Option.some.inj found
        exact ⟨_, _, _, .inl ⟨rfl, rfl, rfl⟩, ownKey.symm, rfl⟩
      · rintro ⟨identity, name, _, ⟨rfl, rfl, rfl⟩ | ⟨_, stored⟩, same, rfl⟩
        · rfl
        · have held := (consistent.named _ _).2 ⟨_, _, _, stored, same, rfl⟩
          exact absurd (held.symm.trans free) (by simp)
    · rename_i apart
      rw [consistent.named]
      constructor
      · rintro ⟨identity, name, owner, stored, same, rfl⟩
        exact ⟨identity, name, owner, .inr ⟨kept stored, stored⟩, same, rfl⟩
      · rintro ⟨identity, name, _, ⟨rfl, rfl, rfl⟩ | ⟨_, stored⟩, same, rfl⟩
        · exact absurd (same.symm.trans ownKey.symm) apart
        · exact ⟨identity, name, _, stored, same, rfl⟩

/-- Contents of a single sound entry are consistent. -/
theorem consistent_of_sound (sound : entry.Sound) :
    (({} : Contents).withEntry entry).Consistent :=
  consistent_empty.withEntry sound rfl rfl

/-- New entries under free names keep contents consistent. -/
theorem Consistent.withEntries {entries : List Entry} (consistent : contents.Consistent)
    (sound : ∀ entry ∈ entries, entry.Sound) (admits : contents.Admits entries)
    (new : ∀ entry ∈ entries, contents.records.get? entry.key = none)
    (distinct : (entries.map Entry.identity).Nodup) :
    (contents.withEntries entries).Consistent := by
  induction entries generalizing contents with
  | nil => exact consistent
  | cons entry rest inductionHypothesis =>
      obtain ⟨soundHere, soundRest⟩ := List.forall_mem_cons.1 sound
      obtain ⟨freeHere, admitsRest⟩ := admits.withEntry
      obtain ⟨newHere, newRest⟩ := List.forall_mem_cons.1 new
      obtain ⟨once, distinctRest⟩ := List.nodup_cons.1 distinct
      refine inductionHypothesis (consistent.withEntry soundHere freeHere newHere) soundRest
        admitsRest (fun later member => ?_) distinctRest
      have apart : later.key ≠ entry.key := fun same =>
        once (List.mem_map.2 ⟨later, member, Uuid.key_injective same⟩)
      exact (OrderedMap.get?_insert_of_ne _ _ apart).trans (newRest later member)

/-- Contents stay consistent without an object of theirs. -/
theorem Consistent.without (consistent : contents.Consistent)
    (found : contents.metadataOf identity = .ok metadata) :
    (contents.without identity metadata).Consistent := by
  obtain ⟨name, owner, describes, stored⟩ := consistent.recorded.describes found
  refine ⟨fun key => ?_, fun key record held => ?_, fun key value => ?_⟩
  · have same := consistent.sameKeys key
    simp only [OrderedMap.contains_eq_isSome] at same
    simp only [Contents.without, withoutPayload, withoutRecord, OrderedMap.contains_eq_isSome,
      OrderedMap.get?_erase_eq, records_withoutName, payloads_withoutName]
    split
    · rfl
    · exact same
  · simp only [Contents.without, withoutPayload, withoutRecord, records_withoutName] at held
    exact consistent.recorded key record (OrderedMap.get?_of_get?_erase held).2
  · simp only [stores_without_iff]
    show (contents.withoutName identity metadata).names.get? key = some value ↔ _
    rw [get?_withoutName_iff describes, consistent.named]
    constructor
    · rintro ⟨⟨other, otherName, otherOwner, otherStored, rfl, rfl⟩, apart⟩
      refine ⟨other, otherName, otherOwner, ⟨?_, otherStored⟩, rfl, rfl⟩
      rintro rfl
      obtain ⟨rfl, rfl⟩ := stored.unique otherStored
      exact apart ⟨rfl, rfl⟩
    · rintro ⟨other, otherName, otherOwner, ⟨apart, otherStored⟩, rfl, rfl⟩
      refine ⟨⟨other, otherName, otherOwner, otherStored, rfl, rfl⟩, ?_⟩
      exact fun own => apart (Uuid.key_injective own.2.symm)

/-! ## Entries that are there -/

/-- All of an entry is there. -/
structure Has (contents : Contents) (entry : Entry) : Prop where
  payload : contents.payloads.get? entry.key = some entry.payload
  record : contents.records.get? entry.key = some entry.record
  name : contents.names.get? entry.nameKey = some entry.key

variable {object : Object}

/-- An entry that is written is there. -/
theorem has_withEntry (contents : Contents) (entry : Entry) :
    (contents.withEntry entry).Has entry :=
  ⟨OrderedMap.get?_insert_self _ _ _, OrderedMap.get?_insert_self _ _ _,
    OrderedMap.get?_insert_self _ _ _⟩

/-- The metadata of an object whose entry is there is found. -/
theorem Has.metadataOf (has : contents.Has object.entry) (made : object.Made) :
    contents.metadataOf object.identity = .ok object.metadata :=
  metadataOf_eq_ok_iff.2 ⟨_, has.record, Metadata.decode_encode made.fits⟩

/-- So is the object, as it was sealed. -/
theorem Has.objectOf (has : contents.Has object.entry) (made : object.Made)
    (sound : object.entry.Sound) : contents.objectOf object.identity = .ok object.sealed := by
  obtain ⟨owner, _, metadata, read, describes⟩ := sound
  obtain rfl := Except.ok.inj (read.symm.trans (Metadata.decode_encode made.fits))
  refine objectOf_eq_ok_iff.2 ⟨object.metadata, object.payload, ?_, has.payload, ?_⟩
  · exact has.metadataOf made
  · exact Object.restore_of_describes describes object.payload

/-- Its name leads to it under every spelling of its owner. -/
theorem Has.resolved {owner : String} (has : contents.Has object.entry)
    (sound : object.entry.Sound) (spelled : Uuid.canonicalise owner = object.owner) :
    contents.resolved object.name owner = .ok object.identity := by
  obtain ⟨ownerUuid, canonical, _, _, describes⟩ := sound
  have parsed := Uuid.canonicalise_eq_toText_iff.1 (spelled.trans canonical)
  refine resolved_eq_ok_iff.2 ⟨ownerUuid, object.identity.key, parsed, describes.short, ?_,
    Uuid.ofKey_key _⟩
  rw [← canonical]
  exact has.name

end Contents

end Depot
