import Depot.Proofs.Consistency.Records

/-!
# Names under partial writes

A name is written before the record it belongs to and removed before it, so there are
names that lead to no object. They do no harm as long as no object of another name gets
the record that is missing. Names are truthful if, wherever a name leads to an object,
the object has that name and that owner; they stay so when entries are indexed to whose
identities no other name leads.
-/

namespace Depot.Contents

variable {before after : Contents} {identity : Uuid} {name : String} {owner : Uuid}
  {entry : Entry}

/-- Every name stands for a name within the limit and an owner, and if an object is stored
under the identity it leads to, they are the object's. -/
structure Truthful (contents : Contents) : Prop where
  recorded : contents.Recorded
  named : ∀ key value, contents.names.get? key = some value →
    ∃ identity name owner, name.utf8ByteSize ≤ Object.nameLimit ∧
      nameKey name owner.toText = key ∧ identity.key = value ∧
      ∀ otherName otherOwner, contents.Stores identity otherName otherOwner →
        otherName = name ∧ otherOwner = owner

/-- The names of the one contents are among those of the other. -/
def NamesWithin (after before : Contents) : Prop :=
  ∀ key value, after.names.get? key = some value → before.names.get? key = some value

/-- All names have a property, together with what they lead to. -/
def AllNames (contents : Contents) (holds : Bytes → Bytes → Prop) : Prop :=
  ∀ key value, contents.names.get? key = some value → holds key value

/-- Names stay truthful when names and records are removed. -/
theorem Truthful.within (truthful : before.Truthful) (names : after.NamesWithin before)
    (records : after.RecordsWithin before) : after.Truthful := by
  refine ⟨truthful.recorded.within records, fun key value found => ?_⟩
  obtain ⟨identity, name, owner, short, claim, same, own⟩ :=
    truthful.named key value (names key value found)
  refine ⟨identity, name, owner, short, claim, same, fun _ _ stored => ?_⟩
  exact own _ _ (stored.within records)

theorem Truthful.withPayloads (truthful : before.Truthful) (entries : List Entry) :
    (before.withPayloads entries).Truthful :=
  truthful.within (fun key value found => by rwa [names_withPayloads] at found)
    (recordsWithin_withPayloads before entries)

/-- Settled contents have truthful names. -/
theorem Settled.truthful (settled : before.Settled) : before.Truthful := by
  refine ⟨settled.recorded, fun key value found => ?_⟩
  obtain ⟨identity, name, owner, stored, claim, same⟩ := settled.led key value found
  refine ⟨identity, name, owner, stored.short, claim, same, fun _ _ alsoStored => ?_⟩
  exact alsoStored.unique stored

theorem namesWithin_withoutName (contents : Contents) (identity : Uuid) (metadata : Metadata) :
    (contents.withoutName identity metadata).NamesWithin contents := by
  intro key value found
  unfold withoutName at found
  split at found
  · exact found
  · split at found
    · exact (OrderedMap.get?_of_get?_erase found).2
    · exact found

theorem Removal.namesWithin {mode : WriteMode} (removal : before.Removal mode identity after) :
    after.NamesWithin before := by
  cases removal with
  | halfway interrupted => cases interrupted <;> exact namesWithin_withoutName _ _ _
  | whole => exact namesWithin_withoutName _ _ _

section

variable {holds : Bytes → Bytes → Prop} {entries : List Entry} {count : Nat}

theorem AllNames.within (all : before.AllNames holds) (names : after.NamesWithin before) :
    after.AllNames holds := fun key value found => all key value (names key value found)

/-- A property of names is kept when an entry gets its name. -/
theorem AllNames.withName (all : before.AllNames holds) (own : holds entry.nameKey entry.key) :
    (before.withName entry).AllNames holds := by
  intro key value found
  simp only [Contents.withName, OrderedMap.get?_insert_eq] at found
  split at found
  · rename_i same
    obtain rfl := Option.some.inj found
    exact same ▸ own
  · exact all key value found

/-- A property of names is kept when entries are indexed whose names have it. -/
theorem AllNames.indexed (all : before.AllNames holds)
    (own : ∀ entry ∈ entries, holds entry.nameKey entry.key)
    (indexed : before.Indexed entries count after) : after.AllNames holds := by
  induction indexed with
  | stopped => exact all
  | named => exact all.withName (List.forall_mem_cons.1 own).1
  | @next before after entry rest count free indexed inductionHypothesis =>
      obtain ⟨here, later⟩ := List.forall_mem_cons.1 own
      have named : ((before.withName entry).withRecord entry).AllNames holds := all.withName here
      exact inductionHypothesis named later

/-- A property of names is kept when content is written and entries are indexed. -/
theorem AllNames.written (all : before.AllNames holds)
    (own : ∀ entry ∈ entries, holds entry.nameKey entry.key)
    (indexed : (before.withPayloads entries).Indexed entries count after) :
    after.AllNames holds := by
  have paid : (before.withPayloads entries).AllNames holds :=
    all.within fun key value found => by rwa [names_withPayloads] at found
  exact paid.indexed own indexed

/-- A property of names is kept when objects are removed. -/
theorem AllNames.removals {mode : WriteMode} (all : before.AllNames holds)
    (removals : before.Removals mode after) : after.AllNames holds := by
  induction removals with
  | refl => exact all
  | tail _ removal inductionHypothesis =>
      obtain ⟨_, removal⟩ := removal
      exact inductionHypothesis.within removal.namesWithin

end

/-- Deletions keep names truthful. -/
theorem Truthful.removals {mode : WriteMode} (truthful : before.Truthful)
    (removals : before.Removals mode after) : after.Truthful := by
  induction removals with
  | refl => exact truthful
  | tail _ removal inductionHypothesis =>
      obtain ⟨_, removal⟩ := removal
      exact inductionHypothesis.within removal.namesWithin removal.recordsWithin

/-- An entry may be indexed: its identity has no record, and no name but its own leads to
its identity. -/
structure MayIndex (contents : Contents) (entry : Entry) : Prop where
  unstored : contents.records.get? entry.key = none
  unmoved : ∀ key, contents.names.get? key = some entry.key → key = entry.nameKey

/-- Names stay truthful when an entry gets its name. -/
theorem Truthful.withName (truthful : before.Truthful) (sound : entry.Sound)
    (may : before.MayIndex entry) : (before.withName entry).Truthful := by
  obtain ⟨owner, canonical, _, _, describes⟩ := sound
  refine ⟨truthful.recorded, fun key value found => ?_⟩
  simp only [Contents.withName, OrderedMap.get?_insert_eq] at found
  split at found
  · rename_i own
    refine ⟨entry.identity, entry.name, owner, describes.short, ?_, Option.some.inj found, ?_⟩
    · rw [own, Entry.nameKey, canonical]
    · rintro _ _ ⟨record, held, _⟩
      exact absurd (held.symm.trans may.unstored) (by simp)
  · exact truthful.named key value found

/-- The name of an entry leads to the entry's identity, and no other name does. -/
theorem MayIndex.withName (may : before.MayIndex entry) :
    (before.withName entry).MayIndex entry := by
  refine ⟨may.unstored, fun key found => ?_⟩
  simp only [Contents.withName, OrderedMap.get?_insert_eq] at found
  split at found
  · assumption
  · exact may.unmoved key found

/-- Names stay truthful when an entry gets its record and only its own name leads to its
identity. -/
theorem Truthful.withRecord (truthful : before.Truthful) (sound : entry.Sound)
    (may : before.MayIndex entry) : (before.withRecord entry).Truthful := by
  refine ⟨truthful.recorded.withRecord sound, fun key value found => ?_⟩
  obtain ⟨entryOwner, canonical, described⟩ := sound
  obtain ⟨identity, name, owner, short, rfl, rfl, own⟩ := truthful.named key value found
  refine ⟨identity, name, owner, short, rfl, rfl, fun otherName otherOwner stored => ?_⟩
  rcases (stores_withRecord_iff described).1 stored with ⟨rfl, rfl, rfl⟩ | ⟨_, stored⟩
  · -- the name leads to the object that is stored now, so it is the entry's own
    have same := may.unmoved _ found
    rw [Entry.nameKey, canonical] at same
    obtain ⟨sameName, sameOwner⟩ := nameKey_injective same
    exact ⟨sameName.symm, sameOwner.symm⟩
  · exact own _ _ stored

/-- An entry may still be indexed after one of another identity was. -/
theorem MayIndex.after_index {later : Entry} (may : before.MayIndex later)
    (apart : later.key ≠ entry.key) :
    ((before.withName entry).withRecord entry).MayIndex later := by
  refine ⟨(OrderedMap.get?_insert_of_ne _ _ apart).trans may.unstored, fun key found => ?_⟩
  simp only [Contents.withRecord, Contents.withName, OrderedMap.get?_insert_eq] at found
  split at found
  · exact absurd (Option.some.inj found).symm apart
  · exact may.unmoved key found

/-- Names stay truthful when entries that may be indexed are indexed. -/
theorem Truthful.indexed {entries : List Entry} {count : Nat} (truthful : before.Truthful)
    (sound : ∀ entry ∈ entries, entry.Sound) (may : ∀ entry ∈ entries, before.MayIndex entry)
    (distinct : (entries.map Entry.identity).Nodup) (indexed : before.Indexed entries count after) :
    after.Truthful := by
  induction indexed with
  | stopped => exact truthful
  | named => exact truthful.withName (List.forall_mem_cons.1 sound).1 (List.forall_mem_cons.1 may).1
  | next _ _ inductionHypothesis =>
      obtain ⟨soundHere, soundRest⟩ := List.forall_mem_cons.1 sound
      obtain ⟨mayHere, mayRest⟩ := List.forall_mem_cons.1 may
      obtain ⟨once, distinctRest⟩ := List.nodup_cons.1 distinct
      refine inductionHypothesis
        ((truthful.withName soundHere mayHere).withRecord soundHere mayHere.withName) soundRest
        (fun later member => (mayRest later member).after_index fun same => ?_) distinctRest
      exact once (List.mem_map.2 ⟨later, member, Uuid.key_injective same⟩)

/-- What a name leads to, if anything is stored there, has this name and this owner. -/
theorem Truthful.stores_of_resolved {metadata : Metadata} {owner : String}
    (truthful : before.Truthful) (leads : before.resolved name owner = .ok identity)
    (found : before.metadataOf identity = .ok metadata) :
    ∃ identifier : Uuid, identifier.toText = Uuid.canonicalise owner ∧
      metadata.Describes identity name identifier ∧ before.Stores identity name identifier ∧
        before.names.get? (nameKey name identifier.toText) = some identity.key := by
  obtain ⟨identifier, key, parsed, _, held, read⟩ := resolved_eq_ok_iff.1 leads
  obtain ⟨holder, heldName, heldOwner, _, claim, rfl, own⟩ := truthful.named _ _ held
  obtain ⟨rfl, rfl⟩ := nameKey_injective claim
  rw [Uuid.ofKey_key] at read
  obtain rfl := Except.ok.inj read
  obtain ⟨storedName, storedOwner, describes, stored⟩ := truthful.recorded.describes found
  obtain ⟨rfl, rfl⟩ := own _ _ stored
  exact ⟨storedOwner, by rw [Uuid.canonicalise, parsed], describes, stored, held⟩

/-- The object that a name is found to lead to has this name and this owner. -/
theorem Truthful.name_of_objectNamed {owner : String} {object : Object} (truthful : before.Truthful)
    (found : before.objectNamed name owner = .ok object) :
    object.name = name ∧ object.owner = Uuid.canonicalise owner := by
  obtain ⟨identity, leads, fetched⟩ : ∃ identity, before.resolved name owner = .ok identity ∧
      before.objectOf identity = .ok object := by
    unfold objectNamed at found
    cases resolved : before.resolved name owner with
    | error => simp [resolved, bind, Except.bind] at found
    | ok identity => exact ⟨identity, rfl, by simpa [resolved, bind, Except.bind] using found⟩
  obtain ⟨metadata, payload, read, _, restored⟩ := objectOf_eq_ok_iff.1 fetched
  obtain ⟨identifier, canonical, describes, _⟩ := truthful.stores_of_resolved leads read
  obtain ⟨_, rfl⟩ := Object.restore_eq_ok restored
  rw [← canonical]
  exact ⟨by rw [Object.name, describes.hasName, Option.getD_some],
    by rw [Object.owner, describes.hasOwner, Option.getD_some]⟩

/-- The key of an object in a region. -/
def objectKey (identity : Uuid) (name : String) (owner : Uuid) : Region → Bytes
  | .name => nameKey name owner.toText
  | .payload | .metadata => identity.key

/-- An object is dropped: it was stored and its name led to it, and its name, its content and its
record are gone, while every other entry is as before. -/
structure Drops (before : Contents) (identity : Uuid) (name : String) (owner : Uuid)
    (after : Contents) : Prop where
  stored : before.Stores identity name owner
  led : before.names.get? (nameKey name owner.toText) = some identity.key
  left : ∀ region key, after.get? region key
    = if key = objectKey identity name owner region then none else before.get? region key

/-- Removing a stored object to which its name leads drops it. -/
theorem Stores.drops_without {metadata : Metadata} (stored : before.Stores identity name owner)
    (describes : metadata.Describes identity name owner)
    (led : before.names.get? (nameKey name owner.toText) = some identity.key) :
    before.Drops identity name owner (before.without identity metadata) := by
  have unnamed : before.withoutName identity metadata
      = { before with names := before.names.erase (nameKey name owner.toText) } := by
    rw [withoutName, describes.claimedName]
    exact if_pos led
  refine ⟨stored, led, fun region key => ?_⟩
  rw [without, unnamed]
  cases region with
  | payload => exact OrderedMap.get?_erase_eq _ _ _
  | name => exact OrderedMap.get?_erase_eq _ _ _
  | metadata => exact OrderedMap.get?_erase_eq _ _ _

end Depot.Contents
