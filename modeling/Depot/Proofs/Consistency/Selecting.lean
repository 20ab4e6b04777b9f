import Mathlib.Data.List.Count
import Mathlib.Data.Set.List
import Depot.Proofs.Bucket.Selecting
import Depot.Proofs.Consistency

/-!
# What selections find

Where every record is that of a stored object, every record can be read and every key is that
of an identity. So a valid selection succeeds, and it selects each identity once whose record
it selects. Objects without content are passed over when they are fetched.
-/

namespace Depot.Contents

variable {contents : Contents} {identity : Uuid} {metadata : Metadata} {selection : Selection}
  {object : Object} {identities : List Uuid}

/-- Identities stand in the order of their keys. -/
def Ascending (identities : List Uuid) : Prop :=
  identities.Pairwise fun earlier later => compare earlier.key later.key = .lt

/-- Identities in the order of their keys differ. -/
theorem Ascending.nodup (ascending : Ascending identities) : identities.Nodup := by
  refine ascending.imp fun below same => ?_
  rw [same, Std.compare_self] at below
  exact absurd below (by simp)

/-- A selection selects the metadata in a record, if there is any. -/
def selectsRecord (selection : Selection) (record : Bytes) : Bool :=
  match Metadata.decode record with
  | .ok metadata => selection.selects metadata
  | .error _ => false

/-- Where all records can be read, a selection gives what the keys of the selected records
spell, if each spells an identity. -/
theorem matching_eq_ok_iff {entries : List (Bytes × Bytes)}
    (readable : ∀ entry ∈ entries, ∃ metadata, Metadata.decode entry.2 = .ok metadata) :
    Bucket.matching selection entries = .ok identities ↔
      identities.map Except.ok = (entries.filter fun entry =>
        selectsRecord selection entry.2).map fun entry => Uuid.ofKey entry.1 := by
  induction entries generalizing identities with
  | nil => simp [Bucket.matching, eq_comm]
  | cons entry rest inductionHypothesis =>
      obtain ⟨key, record⟩ := entry
      obtain ⟨⟨metadata, read⟩, readableRest⟩ := List.forall_mem_cons.1 readable
      by_cases selected : selection.selects metadata = true
      · cases spelled : Uuid.ofKey key with
        | error cause =>
            cases identities <;>
              simp [Bucket.matching, selectsRecord, read, selected, spelled]
        | ok identity =>
            have step : Bucket.matching selection ((key, record) :: rest) = .ok identities ↔
                ∃ others, Bucket.matching selection rest = .ok others ∧
                  identity :: others = identities := by
              simp only [Bucket.matching, read, selected, spelled, if_true]
              cases Bucket.matching selection rest <;> simp
            rw [step]
            simp only [inductionHypothesis readableRest, List.filter_cons, selectsRecord, read,
              selected, if_true, List.map_cons, spelled, List.map_eq_cons_iff, Except.ok.injEq]
            constructor
            · rintro ⟨others, same, rfl⟩
              exact ⟨identity, others, rfl, rfl, same⟩
            · rintro ⟨_, others, rfl, rfl, same⟩
              exact ⟨others, same, rfl⟩
      · simp only [Bucket.matching, List.filter_cons, selectsRecord, read, selected]
        exact inductionHypothesis readableRest

/-- Where all records can be read, a selection gives something if the key of every selected
record spells an identity. -/
theorem exists_matching_iff {entries : List (Bytes × Bytes)}
    (readable : ∀ entry ∈ entries, ∃ metadata, Metadata.decode entry.2 = .ok metadata) :
    (∃ identities, Bucket.matching selection entries = .ok identities) ↔
      ∀ entry ∈ entries, selectsRecord selection entry.2 = true →
        ∃ identity, Uuid.ofKey entry.1 = .ok identity := by
  have values := Set.ext_iff.1 (Set.range_list_map (Except.ok : Uuid → Except DataError Uuid))
    ((entries.filter fun entry => selectsRecord selection entry.2).map
      fun entry => Uuid.ofKey entry.1)
  simp only [matching_eq_ok_iff readable]
  apply values.trans
  constructor
  · intro spelled entry member selected
    obtain ⟨identity, same⟩ :=
      spelled _ (List.mem_map.2 ⟨entry, List.mem_filter.2 ⟨member, selected⟩, rfl⟩)
    exact ⟨identity, same.symm⟩
  · intro spelled read among
    obtain ⟨entry, chosen, rfl⟩ := List.mem_map.1 among
    obtain ⟨member, selected⟩ := List.mem_filter.1 chosen
    obtain ⟨identity, same⟩ := spelled entry member selected
    exact ⟨identity, same.symm⟩

/-- Where all records can be read, a selection gives the identities that the keys of the selected
records spell. -/
theorem mem_matching_iff {entries : List (Bytes × Bytes)}
    (readable : ∀ entry ∈ entries, ∃ metadata, Metadata.decode entry.2 = .ok metadata)
    (found : Bucket.matching selection entries = .ok identities) :
    identity ∈ identities ↔ ∃ entry ∈ entries, selectsRecord selection entry.2 = true ∧
      Uuid.ofKey entry.1 = .ok identity := by
  rw [← List.mem_map_of_injective (fun _ _ => Except.ok.inj),
    (matching_eq_ok_iff readable).1 found, List.mem_map]
  simp only [List.mem_filter, and_assoc]

/-- Where all records can be read and all keys are those of identities, a selection finds the
identities of the records that it selects, in the order of the entries. -/
theorem matching_of_readable {entries : List (Bytes × Bytes)}
    (readable : ∀ entry ∈ entries, ∃ identity : Uuid, ∃ metadata,
      identity.key = entry.1 ∧ Metadata.decode entry.2 = .ok metadata) :
    ∃ identities, Bucket.matching selection entries = .ok identities ∧
      (identities.map Uuid.key).Sublist (entries.map Prod.fst) ∧
      ∀ identity, identity ∈ identities ↔ ∃ record metadata, (identity.key, record) ∈ entries ∧
        Metadata.decode record = .ok metadata ∧ selection.selects metadata = true := by
  induction entries with
  | nil => exact ⟨[], rfl, .slnil, by simp⟩
  | cons entry rest inductionHypothesis =>
      obtain ⟨key, record⟩ := entry
      obtain ⟨⟨own, metadata, same, read⟩, readableRest⟩ := List.forall_mem_cons.1 readable
      obtain rfl : own.key = key := same
      obtain ⟨identities, found, within, members⟩ := inductionHypothesis readableRest
      by_cases selected : selection.selects metadata = true
      · refine ⟨own :: identities, ?_, ?_, fun identity => ?_⟩
        · simp [Bucket.matching, read, selected, found]
        · simpa only [List.map_cons] using within.cons_cons own.key
        · rw [List.mem_cons, members]
          constructor
          · rintro (rfl | ⟨other, otherMetadata, later, fits⟩)
            · exact ⟨record, metadata, List.mem_cons_self, read, selected⟩
            · exact ⟨other, otherMetadata, List.mem_cons_of_mem _ later, fits⟩
          · rintro ⟨other, otherMetadata, member, fits⟩
            rcases List.mem_cons.1 member with same | later
            · exact .inl (Uuid.key_injective (Prod.mk.inj same).1)
            · exact .inr ⟨other, otherMetadata, later, fits⟩
      · refine ⟨identities, ?_, within.cons _, fun identity => ?_⟩
        · simp [Bucket.matching, read, selected, found]
        · rw [members]
          constructor
          · rintro ⟨other, otherMetadata, later, fits⟩
            exact ⟨other, otherMetadata, List.mem_cons_of_mem _ later, fits⟩
          · rintro ⟨other, otherMetadata, member, readOther, selectedOther⟩
            rcases List.mem_cons.1 member with same | later
            · obtain ⟨_, rfl⟩ := Prod.mk.inj same
              obtain rfl := Except.ok.inj (readOther.symm.trans read)
              exact absurd selectedOther selected
            · exact ⟨other, otherMetadata, later, readOther, selectedOther⟩

/-- Where all records can be read, a selection finds the same in all entries as in those that it
selects. -/
theorem matching_filter {entries : List (Bytes × Bytes)}
    (readable : ∀ entry ∈ entries, ∃ metadata, Metadata.decode entry.2 = .ok metadata) :
    Bucket.matching selection (entries.filter fun entry => selectsRecord selection entry.2)
      = Bucket.matching selection entries := by
  induction entries with
  | nil => rfl
  | cons entry rest inductionHypothesis =>
      obtain ⟨key, record⟩ := entry
      obtain ⟨⟨metadata, read⟩, readableRest⟩ := List.forall_mem_cons.1 readable
      have found := inductionHypothesis readableRest
      by_cases selected : selection.selects metadata = true
      · simp only [List.filter_cons, selectsRecord, read, selected, if_true, Bucket.matching]
        rw [← found]
        rfl
      · simp only [List.filter_cons, selectsRecord, read, selected, Bucket.matching]
        exact found

/-- A valid selection selects the identities whose metadata it selects, in the order of their
keys. -/
theorem Recorded.selected_ok (recorded : contents.Recorded) (valid : selection.validate = .ok ()) :
    ∃ identities, contents.selected selection = .ok identities ∧ Ascending identities ∧
      ∀ identity, identity ∈ identities ↔ ∃ metadata,
        contents.metadataOf identity = .ok metadata ∧ selection.selects metadata = true := by
  have readable : ∀ entry ∈ contents.records.entries, ∃ identity : Uuid, ∃ metadata,
      identity.key = entry.1 ∧ Metadata.decode entry.2 = .ok metadata := by
    rintro ⟨key, record⟩ member
    obtain ⟨identity, _, _, same, metadata, read, _⟩ :=
      recorded key record ((contents.records.mem_entries_iff key record).1 member)
    exact ⟨identity, metadata, same, read⟩
  obtain ⟨identities, found, within, members⟩ := @matching_of_readable selection _ readable
  have ordered : (contents.records.entries.map Prod.fst).Pairwise fun earlier later =>
      compare earlier later = .lt := List.pairwise_map.2 contents.records.ascending
  have ascending : (identities.map Uuid.key).Pairwise fun earlier later =>
      compare earlier later = .lt := ordered.sublist within
  rw [List.pairwise_map] at ascending
  refine ⟨identities, ?_, ascending, fun identity => (members identity).trans ?_⟩
  · simp [selected, valid, found, bind, Except.bind, Except.mapError]
  · constructor
    · rintro ⟨record, metadata, member, read, fits⟩
      have held := (contents.records.mem_entries_iff _ _).1 member
      exact ⟨metadata, metadataOf_eq_ok_iff.2 ⟨record, held, read⟩, fits⟩
    · rintro ⟨metadata, found, fits⟩
      obtain ⟨record, held, read⟩ := metadataOf_eq_ok_iff.1 found
      exact ⟨record, metadata, (contents.records.mem_entries_iff _ _).2 held, read, fits⟩

/-- What is matched has metadata that is selected. -/
theorem Recorded.selects_of_mem_matched (recorded : contents.Recorded)
    (member : identity ∈ contents.matched selection) :
    ∃ metadata, contents.metadataOf identity = .ok metadata ∧
      selection.selects metadata = true := by
  unfold matched at member
  cases valid : selection.validate with
  | error cause =>
      rw [selected, valid] at member
      exact absurd member List.not_mem_nil
  | ok =>
      obtain ⟨identities, found, _, members⟩ := recorded.selected_ok valid
      rw [found] at member
      exact (members identity).1 member

/-- An object of an identity is there, or it is not found. -/
theorem RecordedAt.objectOf_cases (recordedAt : contents.RecordedAt identity) :
    (∃ object, contents.objectOf identity = .ok object ∧ object.identity = identity) ∨
      ∃ error, contents.objectOf identity = .error error ∧ error.isNotFound = true := by
  cases read : contents.metadataOf identity with
  | ok metadata =>
      obtain ⟨_, _, describes, _⟩ := recordedAt.describes read
      cases held : contents.payloads.get? identity.key with
      | some payload =>
          refine .inl ⟨⟨identity, metadata, payload, true⟩, objectOf_eq_ok_iff.2 ?_, rfl⟩
          exact ⟨metadata, payload, read, held, Object.restore_of_describes describes payload⟩
      | none =>
          refine .inr ⟨.notFound identity, ?_, rfl⟩
          simp [objectOf, payloadOf, required, read, held, bind, Except.bind]
  | error error =>
      -- a record that is there can be read, so it is the record that is missing
      refine .inr ⟨error, objectOf_of_metadataOf_error read, ?_⟩
      cases held : contents.records.get? identity.key with
      | none =>
          rw [← Except.error.inj ((metadataOf_of_missing held).symm.trans read)]
          rfl
      | some record =>
          obtain ⟨_, _, metadata, decoded, _⟩ := recordedAt record held
          exact absurd (read.symm.trans (metadataOf_eq_ok_iff.2 ⟨record, held, decoded⟩)) (by simp)

/-- The objects of identities are fetched, without those that are not there. -/
theorem objectsOf_eq (recorded : ∀ identity ∈ identities, contents.RecordedAt identity) :
    contents.objectsOf identities
      = .ok (identities.filterMap fun identity => (contents.objectOf identity).toOption) := by
  induction identities with
  | nil => rfl
  | cons identity rest inductionHypothesis =>
      obtain ⟨recordedAt, recordedRest⟩ := List.forall_mem_cons.1 recorded
      rw [objectsOf, inductionHypothesis recordedRest]
      rcases recordedAt.objectOf_cases with ⟨object, found, _⟩ | ⟨error, missing, notFound⟩
      · simp [found, bind, Except.bind, pure, Except.pure, Except.toOption]
      · simp [missing, notFound, Except.toOption]

/-- Among the objects that a valid selection finds, one that can be fetched is there once if
its metadata is selected, and not otherwise. -/
theorem Recorded.objectsSelected_ok (recorded : contents.Recorded)
    (valid : selection.validate = .ok ()) (found : contents.objectOf object.identity = .ok object) :
    ∃ objects, contents.objectsSelected selection = .ok objects ∧
      objects.filter (fun other => other.identity = object.identity)
        = if selection.selects object.metadata then [object] else [] := by
  obtain ⟨identities, selects, ascending, members⟩ := recorded.selected_ok valid
  have selected : object.identity ∈ identities ↔ selection.selects object.metadata = true := by
    obtain ⟨metadata, payload, read, _, restored⟩ := objectOf_eq_ok_iff.1 found
    obtain ⟨_, rfl⟩ := Object.restore_eq_ok restored
    rw [members]
    constructor
    · rintro ⟨other, readAgain, fits⟩
      rwa [Except.ok.inj (readAgain.symm.trans read)] at fits
    · exact fun fits => ⟨metadata, read, fits⟩
  have own : ∀ identity, ((contents.objectOf identity).toOption.filter fun other =>
      other.identity = object.identity)
        = if decide (identity = object.identity) = true then (contents.objectOf identity).toOption
          else none := by
    intro identity
    rcases (recorded.recordedAt identity).objectOf_cases with
      ⟨other, fetched, rfl⟩ | ⟨error, missing, _⟩
    · simp [fetched, Except.toOption, Option.filter]
    · simp [missing, Except.toOption]
  refine ⟨identities.filterMap fun identity => (contents.objectOf identity).toOption, ?_, ?_⟩
  · rw [objectsSelected, selects]
    exact objectsOf_eq fun identity _ => recorded.recordedAt identity
  · rw [List.filter_filterMap, funext own, ← List.filterMap_filter, List.filter_eq,
      ascending.nodup.count]
    by_cases fits : selection.selects object.metadata = true
    · simp [selected.2 fits, fits, found, Except.toOption]
    · simp [mt selected.1 fits, fits]

end Depot.Contents
