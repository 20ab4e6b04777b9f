import Depot.Proofs.Batch
import Depot.Proofs.Object

/-!
# What entries write

An entry that was prepared belongs to an object that passed validation, and its
record says whose it is. Committed writes of entries have one effect each, and
entries written completely leave the same contents in whatever order the regions
are written.
-/

namespace Depot

/-- A record in the metadata region is readable and describes the object. -/
def RecordOf (record : Bytes) (identity : Uuid) (name : String) (owner : Uuid) : Prop :=
  ∃ metadata, Metadata.decode record = .ok metadata ∧ metadata.Describes identity name owner

/-- A record describes one object at most. -/
theorem RecordOf.unique {record : Bytes} {identity otherIdentity : Uuid} {name otherName : String}
    {owner otherOwner : Uuid} (first : RecordOf record identity name owner)
    (second : RecordOf record otherIdentity otherName otherOwner) :
    identity = otherIdentity ∧ name = otherName ∧ owner = otherOwner := by
  obtain ⟨metadata, read, describes⟩ := first
  obtain ⟨other, otherRead, otherDescribes⟩ := second
  obtain rfl := Except.ok.inj (read.symm.trans otherRead)
  exact describes.unique otherDescribes

/-- The entry of an object, whether or not it may be stored. -/
def Object.entry (object : Object) : Entry :=
  ⟨object.identity, object.name, object.owner, object.payload, object.metadata.encode⟩

/-- An object may be stored: it is unsealed and passes validation. -/
structure Object.Storable (requireContentType : Bool) (object : Object) : Prop where
  unsealed : object.isSealed = false
  valid : object.validate requireContentType = .ok ()

namespace Entry

/-- The record of an entry describes its identity, name and owner. -/
def Sound (entry : Entry) : Prop :=
  ∃ owner : Uuid, entry.owner = owner.toText ∧ RecordOf entry.record entry.identity entry.name owner

/-- An entry is prepared exactly for an object that may be stored. -/
theorem prepare_eq_ok_iff {requireContentType : Bool} {object : Object} {entry : Entry} :
    prepare requireContentType object = .ok entry ↔
      object.Storable requireContentType ∧ object.entry = entry := by
  have reading : prepare requireContentType object = .ok entry ↔
      object.isSealed = false ∧ object.validate requireContentType = .ok () ∧
        object.entry = entry := by
    unfold prepare Object.requireUnsealed Object.entry
    cases object.isSealed <;> cases object.validate requireContentType <;>
      simp [bind, Except.bind, pure, Except.pure]
  rw [reading, ← and_assoc]
  exact and_congr_left fun _ => ⟨fun both => ⟨both.1, both.2⟩, fun may => ⟨may.unsealed, may.valid⟩⟩

/-- An entry as a whole is three writes, the name first. -/
theorem writes_fullWrite (entry : Entry) :
    entry.fullWrite.writes = [.putNew .name entry.nameKey entry.key,
      .put .payload entry.key entry.payload, .put .metadata entry.key entry.record] := rfl

/-- The entry of an object that can be made and may be stored is sound. -/
theorem sound {requireContentType : Bool} {object : Object} (made : object.Made)
    (storable : object.Storable requireContentType) : object.entry.Sound := by
  obtain ⟨owner, canonical, describes⟩ :=
    (made.orderly storable.unsealed).describes storable.valid
  exact ⟨owner, canonical, object.metadata, Metadata.decode_encode made.fits, describes⟩

/-- Shown as text, the key of a name is still that key. -/
theorem encode_decodeLossy_nameKey (entry : Entry) :
    Utf8.encode (Utf8.decodeLossy entry.nameKey) = entry.nameKey := by
  rw [nameKey, Depot.nameKey, Utf8.decodeLossy_encode]

/-- No entry is repeated exactly if all name keys differ, from each other and from those
seen before. -/
theorem firstRepeated_eq_none_iff {seen : List Bytes} {entries : List Entry} :
    firstRepeated seen entries = none ↔
      (∀ entry ∈ entries, entry.nameKey ∉ seen) ∧ (entries.map nameKey).Nodup := by
  induction entries generalizing seen with
  | nil => simp [firstRepeated]
  | cons entry rest inductionHypothesis =>
      rw [firstRepeated]
      split
      · rename_i member
        simp [member]
      · rename_i fresh
        rw [inductionHypothesis, List.map_cons, List.nodup_cons, List.forall_mem_cons]
        constructor
        · rintro ⟨apart, distinct⟩
          refine ⟨⟨fresh, fun other member => ?_⟩, ?_, distinct⟩
          · exact fun earlier => apart other member (List.mem_cons_of_mem _ earlier)
          · rintro repeated
            obtain ⟨other, member, same⟩ := List.mem_map.1 repeated
            exact apart other member (same ▸ List.mem_cons_self)
        · rintro ⟨⟨_, apart⟩, unrepeated, distinct⟩
          refine ⟨fun other member => ?_, distinct⟩
          rw [List.mem_cons, not_or]
          exact ⟨fun same => unrepeated (List.mem_map.2 ⟨other, member, same⟩), apart other member⟩

end Entry

namespace Contents

variable {rule : KeyRule} {before after : Contents} {entry : Entry} {entries : List Entry}

/-- The contents with the content of an entry. -/
def withPayload (contents : Contents) (entry : Entry) : Contents :=
  { contents with payloads := contents.payloads.insert entry.key entry.payload }

/-- The contents with the name of an entry. -/
def withName (contents : Contents) (entry : Entry) : Contents :=
  { contents with names := contents.names.insert entry.nameKey entry.key }

/-- The contents with the record of an entry. -/
def withRecord (contents : Contents) (entry : Entry) : Contents :=
  { contents with records := contents.records.insert entry.key entry.record }

/-- The contents with all of an entry. -/
def withEntry (contents : Contents) (entry : Entry) : Contents :=
  ((contents.withPayload entry).withName entry).withRecord entry

/-- The contents with the content of entries, one after the other. -/
def withPayloads (contents : Contents) (entries : List Entry) : Contents :=
  entries.foldl withPayload contents

/-- The contents with all of entries, one after the other. -/
def withEntries (contents : Contents) (entries : List Entry) : Contents :=
  entries.foldl withEntry contents

/-- The names of entries are free and differ from each other. -/
structure Admits (contents : Contents) (entries : List Entry) : Prop where
  free : ∀ entry ∈ entries, contents.names.get? entry.nameKey = none
  distinct : (entries.map Entry.nameKey).Nodup

/-- A name that is written takes its key from the other entries. -/
theorem Admits.of_withName (admits : (before.withName entry).Admits entries)
    (free : before.names.get? entry.nameKey = none) : before.Admits (entry :: entries) where
  free := by
    refine List.forall_mem_cons.2 ⟨free, fun other member => ?_⟩
    have absent : (before.names.insert entry.nameKey entry.key).get? other.nameKey = none :=
      admits.free other member
    rw [OrderedMap.get?_insert_eq] at absent
    split at absent
    · exact absurd absent (by simp)
    · exact absent
  distinct := by
    refine List.nodup_cons.2 ⟨fun repeated => ?_, admits.distinct⟩
    obtain ⟨other, member, same⟩ := List.mem_map.1 repeated
    have absent : (before.names.insert entry.nameKey entry.key).get? other.nameKey = none :=
      admits.free other member
    rw [same, OrderedMap.get?_insert_self] at absent
    exact absurd absent (by simp)

/-- Once the first entry is written, the others still have free names that differ. -/
theorem Admits.withEntry (admits : before.Admits (entry :: entries)) :
    before.names.get? entry.nameKey = none ∧ (before.withEntry entry).Admits entries := by
  obtain ⟨free, freeRest⟩ := List.forall_mem_cons.1 admits.free
  obtain ⟨once, distinct⟩ := List.nodup_cons.1 admits.distinct
  refine ⟨free, fun other member => ?_, distinct⟩
  have apart : other.nameKey ≠ entry.nameKey := fun same =>
    once (List.mem_map.2 ⟨other, member, same⟩)
  exact (OrderedMap.get?_insert_of_ne _ _ apart).trans (freeRest other member)

theorem commit_payloadWrite (done : before.commit rule entry.payloadWrite = .ok after) :
    after = before.withPayload entry :=
  (commit_put_eq_ok_iff.1 done).2.symm

/-- A name is committed only under a free key. -/
theorem commit_nameWrite (done : before.commit rule entry.nameWrite = .ok after) :
    before.names.get? entry.nameKey = none ∧ after = before.withName entry :=
  have ⟨_, free, left⟩ := commit_putNew_eq_ok_iff.1 done
  ⟨free, left.symm⟩

theorem commit_recordWrite (done : before.commit rule entry.recordWrite = .ok after) :
    after = before.withRecord entry :=
  (commit_put_eq_ok_iff.1 done).2.symm

/-- An entry is committed as a whole only under a free name. -/
theorem commit_fullWrite (done : before.commit rule entry.fullWrite = .ok after) :
    before.names.get? entry.nameKey = none ∧ after = before.withEntry entry := by
  obtain ⟨_, namesAndContent, record⟩ := commit_extend_eq_ok_iff.1 done
  obtain ⟨_, name, content⟩ := commit_extend_eq_ok_iff.1 namesAndContent
  obtain ⟨free, rfl⟩ := commit_nameWrite name
  obtain rfl := commit_payloadWrite content
  exact ⟨free, commit_recordWrite record⟩

/-- What the committed contents of entries leave. -/
theorem commit_payloadWrites
    (done : before.commit rule (Batch.join (entries.map Entry.payloadWrite)) = .ok after) :
    after = before.withPayloads entries := by
  induction entries generalizing before with
  | nil => exact (Except.ok.inj done).symm
  | cons entry rest inductionHypothesis =>
      obtain ⟨_, first, others⟩ := commit_join_cons_eq_ok_iff.1 done
      obtain rfl := commit_payloadWrite first
      exact inductionHypothesis others

/-- Entries are committed as a whole only under free names that differ. -/
theorem commit_fullWrites
    (done : before.commit rule (Batch.join (entries.map Entry.fullWrite)) = .ok after) :
    before.Admits entries ∧ after = before.withEntries entries := by
  induction entries generalizing before with
  | nil => exact ⟨⟨by simp, .nil⟩, (Except.ok.inj done).symm⟩
  | cons entry rest inductionHypothesis =>
      obtain ⟨_, first, others⟩ := commit_join_cons_eq_ok_iff.1 done
      obtain ⟨free, rfl⟩ := commit_fullWrite first
      obtain ⟨admits, left⟩ := inductionHypothesis others
      exact ⟨Admits.of_withName ⟨admits.free, admits.distinct⟩ free, left⟩

end Contents

end Depot
