import Depot.Proofs.Bucket.Modes
import Depot.Proofs.Consistency.Selecting
import Depot.Proofs.Reconciliation.Specification

/-!
# What can be read of usable contents

Contents are usable if whatever has a record has content, too, and the record can be read and
gives a name and an owner. Two things are left open by this. The key of a record need not be
that of an identity, and the record need not give an identity, or may give another one. Whether
objects are fetched and selections are run depends on these alone, and each piece of work is
told here with the exact condition under which it gives a value.
-/

namespace Depot

variable {α β : Type} {condition whole : Prop}

/-- A result is a value exactly under a condition. Otherwise it fails since something that is
stored cannot be read. -/
def ReadsIf (condition : Prop) : Except StoreError α → Prop
  | .ok _ => condition
  | .error error => ¬ condition ∧ ∃ cause, error = .undecodable cause

namespace ReadsIf

/-- There is a value exactly under the condition. -/
theorem exists_ok_iff {result : Except StoreError α} (reads : ReadsIf condition result) :
    (∃ value, result = .ok value) ↔ condition := by
  cases result with
  | ok value => exact iff_of_true ⟨value, rfl⟩ reads
  | error error => exact iff_of_false (by simp) reads.1

/-- A condition may be told in other words. -/
theorem congr {result : Except StoreError α} (reads : ReadsIf condition result)
    (same : condition ↔ whole) : ReadsIf whole result :=
  propext same ▸ reads

/-- What is wrong with stored data is what cannot be read. -/
theorem undecodable (result : Except DataError α) :
    ReadsIf (∃ value, result = .ok value) (result.mapError .undecodable) := by
  cases result with
  | ok value => exact ⟨value, rfl⟩
  | error cause => exact ⟨by simp, cause, rfl⟩

/-- Two results, one after the other, are a value under a condition of both. -/
theorem bind {first : Except StoreError α} {next : α → Except StoreError β}
    (reads : ReadsIf condition first) (needed : whole → condition)
    (later : ∀ value, first = .ok value → ReadsIf whole (next value)) :
    ReadsIf whole (first >>= next) := by
  cases first with
  | ok value => exact later value rfl
  | error error => exact ⟨mt needed reads.1, reads.2⟩

end ReadsIf

namespace Contents

variable {contents : Contents} {identity : Uuid} {metadata : Metadata} {selection : Selection}
  {identities : List Uuid}

/-- Everything that has a record is live. -/
def Usable (contents : Contents) : Prop :=
  ∀ key record, contents.records.get? key = some record → Reconciliation.Live contents key

/-- The key of every record that a selection selects spells an identity. -/
def Addressed (contents : Contents) (selection : Selection) : Prop :=
  ∀ key record, contents.records.get? key = some record →
    selectsRecord selection record = true → ∃ identity, Uuid.ofKey key = .ok identity

/-- Metadata that is stored for an identity gives one, if there is any. -/
def Identified (contents : Contents) (identity : Uuid) : Prop :=
  ∀ metadata, contents.metadataOf identity = .ok metadata → metadata.identity?.isSome = true

/-- The key of every record that a selection selects spells an identity, and what is stored for
that identity gives one. -/
def Retrievable (contents : Contents) (selection : Selection) : Prop :=
  ∀ key record, contents.records.get? key = some record →
    selectsRecord selection record = true →
      ∃ identity, Uuid.ofKey key = .ok identity ∧ contents.Identified identity

/-! ## Objects -/

/-- A record of usable contents can be read, gives a name and an owner, and has content. -/
theorem Usable.describes (usable : contents.Usable) {key record : Bytes}
    (found : contents.records.get? key = some record) :
    ∃ metadata payload, Metadata.decode record = .ok metadata ∧
      contents.payloads.get? key = some payload ∧
      metadata.has Metadata.Key.name.text = true ∧
      metadata.has Metadata.Key.owner.text = true := by
  obtain ⟨_, ⟨payload, held⟩, other, metadata, _, _, foundAgain, read, named, _, owned, _⟩ :=
    usable key record found
  obtain rfl := Option.some.inj (found.symm.trans foundAgain)
  exact ⟨metadata, payload, read, held, Metadata.has_iff.2 ⟨_, named⟩,
    Metadata.has_iff.2 ⟨_, owned⟩⟩

/-- Metadata is missing, or it is there and so is the content, and a name and an owner are
given. -/
theorem Usable.metadataOf_cases (usable : contents.Usable) (identity : Uuid) :
    contents.metadataOf identity = .error (.notFound identity) ∨
      ∃ metadata payload, contents.metadataOf identity = .ok metadata ∧
        contents.payloads.get? identity.key = some payload ∧
        metadata.has Metadata.Key.name.text = true ∧
        metadata.has Metadata.Key.owner.text = true := by
  cases found : contents.records.get? identity.key with
  | none => exact .inl (metadataOf_of_missing found)
  | some record =>
      right
      obtain ⟨metadata, payload, read, described⟩ := usable.describes found
      exact ⟨metadata, payload, metadataOf_eq_ok_iff.2 ⟨record, found, read⟩, described⟩

/-- An object whose metadata is there is read if the metadata gives an identity. -/
theorem Usable.readsIf_objectOf (usable : contents.Usable)
    (found : contents.metadataOf identity = .ok metadata) :
    ReadsIf (metadata.identity?.isSome = true) (contents.objectOf identity) := by
  obtain missing | ⟨other, payload, foundAgain, held, named, owned⟩ :=
    usable.metadataOf_cases identity
  · exact absurd (missing.symm.trans found) (by simp)
  obtain rfl := Except.ok.inj (found.symm.trans foundAgain)
  rw [objectOf_eq_restore found held]
  apply (ReadsIf.undecodable _).congr
  constructor
  · rintro ⟨restored, done⟩
    exact Option.isSome_iff_exists.2 ⟨_, (Object.restore_eq_ok_iff.1 done).1⟩
  · intro some
    obtain ⟨own, given⟩ := Option.isSome_iff_exists.1 some
    exact ⟨⟨own, metadata, payload, true⟩,
      Object.restore_eq_ok_iff.2 ⟨given, named, owned, rfl⟩⟩

/-- An object that is fetched has the identity that its record gives. -/
theorem identity?_of_objectOf {object : Object}
    (found : contents.metadataOf identity = .ok metadata)
    (fetched : contents.objectOf identity = .ok object) :
    metadata.identity? = some object.identity := by
  obtain ⟨other, _, foundAgain, _, restored⟩ := objectOf_eq_ok_iff.1 fetched
  obtain rfl := Except.ok.inj (found.symm.trans foundAgain)
  exact (Object.restore_eq_ok_iff.1 restored).1

/-- Objects are fetched if the metadata of all those that are there give identities. -/
theorem Usable.readsIf_objectsOf (usable : contents.Usable) (identities : List Uuid) :
    ReadsIf (∀ identity ∈ identities, contents.Identified identity)
      (contents.objectsOf identities) := by
  induction identities with
  | nil => exact fun _ member => absurd member List.not_mem_nil
  | cons identity rest inductionHypothesis =>
      rw [List.forall_mem_cons, objectsOf]
      obtain missing | ⟨metadata, payload, found, _⟩ := usable.metadataOf_cases identity
      · rw [objectOf_of_metadataOf_error missing]
        refine inductionHypothesis.congr (iff_and_self.2 fun _ metadata found => ?_)
        exact absurd (missing.symm.trans found) (by simp)
      · have identified : contents.Identified identity ↔ metadata.identity?.isSome = true := by
          refine ⟨fun given => given metadata found, fun given other foundAgain => ?_⟩
          rwa [← Except.ok.inj (found.symm.trans foundAgain)]
        have reads := usable.readsIf_objectOf found
        cases fetched : contents.objectOf identity with
        | ok object =>
            rw [fetched] at reads
            refine inductionHypothesis.bind And.right fun objects done => ?_
            rw [done] at inductionHypothesis
            exact ⟨identified.2 reads, inductionHypothesis⟩
        | error error =>
            rw [fetched] at reads
            obtain ⟨unidentified, cause, rfl⟩ := reads
            exact ⟨fun given => unidentified (identified.1 given.1), cause, rfl⟩

/-! ## Selections -/

/-- All records of usable contents can be read. -/
theorem Usable.readable (usable : contents.Usable) : ∀ entry ∈ contents.records.entries,
    ∃ metadata, Metadata.decode entry.2 = .ok metadata := by
  rintro ⟨key, record⟩ member
  obtain ⟨metadata, _, read, _⟩ :=
    usable.describes ((contents.records.mem_entries_iff key record).1 member)
  exact ⟨metadata, read⟩

/-- A valid selection selects what is found in the records. -/
theorem selected_of_valid (valid : selection.validate = .ok ()) :
    contents.selected selection
      = (Bucket.matching selection contents.records.entries).mapError .undecodable := by
  rw [selected, valid]
  rfl

/-- A valid selection selects something if the key of every selected record spells an
identity. -/
theorem Usable.readsIf_selected (usable : contents.Usable)
    (valid : selection.validate = .ok ()) :
    ReadsIf (contents.Addressed selection) (contents.selected selection) := by
  rw [selected_of_valid valid]
  apply (ReadsIf.undecodable _).congr
  simp only [exists_matching_iff usable.readable, Prod.forall, OrderedMap.mem_entries_iff]
  rfl

/-- An identity is selected if it is spelled by the key of a selected record. -/
theorem Usable.mem_selected_iff (usable : contents.Usable) (valid : selection.validate = .ok ())
    (found : contents.selected selection = .ok identities) :
    identity ∈ identities ↔ ∃ key record, contents.records.get? key = some record ∧
      selectsRecord selection record = true ∧ Uuid.ofKey key = .ok identity := by
  rw [selected_of_valid valid] at found
  rw [mem_matching_iff usable.readable (mapError_eq_ok_iff.1 found)]
  simp only [Prod.exists, OrderedMap.mem_entries_iff]

/-- The selected objects are fetched if the key of every selected record spells an identity, and
what is stored for that identity gives one. -/
theorem Usable.readsIf_objectsSelected (usable : contents.Usable)
    (valid : selection.validate = .ok ()) :
    ReadsIf (contents.Retrievable selection) (contents.objectsSelected selection) := by
  have reads := usable.readsIf_selected valid
  refine reads.bind ?_ fun identities found => ?_
  · intro retrievable key record found selected
    obtain ⟨identity, spelled, _⟩ := retrievable key record found selected
    exact ⟨identity, spelled⟩
  · apply (usable.readsIf_objectsOf identities).congr
    simp only [usable.mem_selected_iff valid found]
    constructor
    · intro identified key record held selected
      have addressed := reads.exists_ok_iff.1 ⟨identities, found⟩
      obtain ⟨identity, spelled⟩ := addressed key record held selected
      exact ⟨identity, spelled, identified identity ⟨key, record, held, selected, spelled⟩⟩
    · rintro retrievable identity ⟨key, record, held, selected, spelled⟩
      obtain ⟨other, spelledAgain, identified⟩ := retrievable key record held selected
      rwa [Except.ok.inj (spelled.symm.trans spelledAgain)]

/-! ## Deletions -/

/-- Whether an identity is live depends on its own content and record only. -/
theorem live_of_eq {before after : Contents} {key : Bytes}
    (payload : after.payloads.get? key = before.payloads.get? key)
    (record : after.records.get? key = before.records.get? key)
    (live : Reconciliation.Live before key) : Reconciliation.Live after key := by
  unfold Reconciliation.Live Reconciliation.Claims at live ⊢
  rwa [payload, record]

/-- Usable contents stay usable without the object of an identity. -/
theorem Usable.without (usable : contents.Usable) (identity : Uuid) (metadata : Metadata) :
    (contents.without identity metadata).Usable := by
  intro key record found
  simp only [Contents.without, withoutPayload, withoutRecord, records_withoutName] at found
  obtain ⟨apart, before⟩ := OrderedMap.get?_of_get?_erase found
  apply live_of_eq _ _ (usable key record before)
  · simp only [Contents.without, withoutPayload, withoutRecord, payloads_withoutName]
    exact OrderedMap.get?_erase_of_ne _ apart
  · simp only [Contents.without, withoutPayload, withoutRecord, records_withoutName]
    exact OrderedMap.get?_erase_of_ne _ apart

end Contents

namespace Bucket

variable {bucket : Bucket} {before : Contents} {selection : Selection}

/-- On a calm engine in memory, a batch that can be committed is. -/
theorem leads_commit_inMemory {batch : Batch} {after : Contents}
    {outcome : Except StoreError Unit → Contents → Prop}
    (done : before.commit .unrestricted batch = .ok after) (reached : outcome (.ok ()) after) :
    Leads (.reliable .unrestricted) (Session.commit batch).run before outcome := by
  apply Leads.commit
  · exact fun never => never.elim
  · exact fun error refused => absurd (refused.symm.trans done) (by simp)
  · intro other committed
    rwa [Except.ok.inj (committed.symm.trans done)]

/-- On a calm engine in memory, an object whose metadata is there is removed. -/
theorem leads_delete_inMemory (identity : Uuid) :
    Leads (.reliable .unrestricted) (bucket.delete identity).run before fun result after =>
      match before.metadataOf identity with
      | .ok metadata => result = .ok () ∧ after = before.without identity metadata
      | .error error => result = .error error ∧ after = before := by
  refine Leads.follow (leads_metadata identity) ?_ ?_
  · rintro error after ⟨same, shown | ⟨never, _⟩⟩
    · rw [← shown]
      exact ⟨rfl, same⟩
    · exact never.elim
  rintro metadata _ shows
  rw [shows.eq_of_ok]
  obtain rfl := shows.1.symm
  refine Leads.follow (leads_nameRemoval identity metadata) ?_ ?_
  · rintro error after ⟨_, wrong | ⟨never, _⟩⟩
    · exact absurd wrong (by simp)
    · exact never.elim
  rintro names _ shows
  obtain rfl := Except.ok.inj shows.eq_of_ok
  obtain rfl := shows.1.symm
  cases bucket.settings.writeMode with
  | atomic =>
      exact Leads.andThen (leads_commit_inMemory (Contents.commit_removal_eq _ _ _)
        (Leads.emitIf ⟨rfl, rfl⟩))
  | independent =>
      -- the commits after the name's, which is left out if there is no name to remove
      have rest : Leads (.reliable .unrestricted) (do
          Session.commit (Batch.empty.delete .payload identity.key)
          Session.commit (Batch.empty.delete .metadata identity.key)
          bucket.report (.objectDeleted identity) : Session Unit).run
          (before.withoutName identity metadata) fun result after =>
            result = .ok () ∧ after = before.without identity metadata :=
        Leads.andThen (leads_commit_inMemory rfl
          (Leads.andThen (leads_commit_inMemory rfl (Leads.emitIf ⟨rfl, rfl⟩))))
      dsimp only
      split
      · rename_i empty
        rwa [Contents.withoutName_of_isEmpty empty] at rest
      · exact Leads.andThen (leads_commit_inMemory (Contents.commit_nameRemoval_eq _ _ _) rest)

/-- Objects of usable contents are removed one by one, and missing ones are passed over. -/
theorem leads_deleteEach_usable (usable : before.Usable) (identities : List Uuid) :
    Leads (.reliable .unrestricted) (bucket.deleteEach identities).run before fun result _ =>
      ∃ count, result = .ok count := by
  induction identities generalizing before with
  | nil => exact Leads.give ⟨0, rfl⟩
  | cons identity rest inductionHypothesis =>
      refine Leads.andThen (Leads.attempt ((leads_delete_inMemory identity).mono ?_))
      intro result between removed
      obtain missing | ⟨metadata, _, found, _⟩ := usable.metadataOf_cases identity
      · rw [missing] at removed
        obtain ⟨rfl, rfl⟩ := removed
        exact Leads.andThen (Leads.emit (inductionHypothesis usable))
      · rw [found] at removed
        obtain ⟨rfl, rfl⟩ := removed
        refine Leads.follow (inductionHypothesis (usable.without identity metadata)) ?_ ?_
        · rintro error after ⟨count, wrong⟩
          exact absurd wrong (by simp)
        · exact fun count after _ => Leads.give ⟨count + 1, rfl⟩

/-- The selected objects of usable contents are removed if the key of every selected record
spells an identity. -/
theorem leads_deleteSelected_usable (usable : before.Usable)
    (valid : selection.validate = .ok ()) :
    Leads (.reliable .unrestricted) (bucket.deleteSelected selection).run before fun result _ =>
      ReadsIf (before.Addressed selection) result := by
  have reads := usable.readsIf_selected valid
  refine Leads.follow (leads_select selection) ?_ ?_
  · rintro error after ⟨_, shown | ⟨never, _⟩⟩
    · rwa [← shown] at reads
    · exact never.elim
  rintro identities _ shows
  rw [shows.eq_of_ok] at reads
  obtain rfl := shows.1.symm
  refine Leads.follow (leads_deleteEach_usable usable identities) ?_ ?_
  · rintro error after ⟨count, wrong⟩
    exact absurd wrong (by simp)
  · exact fun count after _ => Leads.andThen (Leads.emitIf (Leads.give reads))

end Bucket

end Depot
