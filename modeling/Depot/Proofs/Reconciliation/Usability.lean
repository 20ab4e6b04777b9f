import Depot.Proofs.Consistency.Usability

/-!
# What a reconciliation makes usable

Whatever an engine in memory holds, what a reconciliation leaves is usable: every record can be
read, gives a name and an owner, and has content. A reconciliation looks neither at the key of a
record nor at the identity that the record gives, so these decide what can be read afterwards.
Where every record that is kept stands under the key of the identity that it gives, every object
is fetched by that identity, and nothing that is stored makes a look or a deletion fail.
-/

namespace Depot

/-- How a bucket works on usable contents. -/
structure Bucket.WorksOn (bucket : Bucket) (store : Store) : Prop where
  usable : store.contents.Usable
  /-- The object of an identity that has a record is fetched if the record gives an identity,
  which is then the object's. -/
  fetches : ∀ (identity : Uuid) record metadata,
    store.contents.records.get? identity.key = some record →
      Metadata.decode record = .ok metadata →
        ReadsIf (metadata.identity?.isSome = true) ((bucket.fetch identity).run.run store).1 ∧
          ∀ object, ((bucket.fetch identity).run.run store).1 = .ok object →
            metadata.identity? = some object.identity
  fetchesSelected : ∀ selection : Selection, selection.validate = .ok () →
    ReadsIf (store.contents.Retrievable selection)
      ((bucket.fetchSelected selection).run.run store).1
  deletesSelected : ∀ selection : Selection, selection.validate = .ok () →
    ReadsIf (store.contents.Addressed selection)
      ((bucket.deleteSelected selection).run.run store).1

/-- So a bucket works on usable contents that a calm engine in memory holds. -/
theorem Contents.Usable.worksOn {contents : Contents} (usable : contents.Usable) (bucket : Bucket)
    (events : List Event) : bucket.WorksOn { contents, events } where
  usable := usable
  fetches identity record metadata held read := by
    have found := Contents.metadataOf_eq_ok_iff.2 ⟨record, held, read⟩
    rw [Leads.value_inMemory (bucket.leads_fetch identity)]
    exact ⟨usable.readsIf_objectOf found, fun object => Contents.identity?_of_objectOf found⟩
  fetchesSelected selection valid := by
    rw [Leads.value_inMemory (bucket.leads_fetchSelected selection)]
    exact usable.readsIf_objectsSelected valid
  deletesSelected selection valid :=
    @Leads.outcome_of_calm_run _ { contents, events } _ _
      (Bucket.leads_deleteSelected_usable usable valid)

namespace Reconciliation

variable {before after : Contents} {key record holder : Bytes}

/-- The record of every live identity is in place: it stands under the key of the identity that
it gives. -/
def InPlace (contents : Contents) : Prop :=
  ∀ key record metadata, Live contents key → contents.records.get? key = some record →
    Metadata.decode record = .ok metadata →
      ∃ identity : Uuid, identity.key = key ∧ metadata.identity? = some identity

/-- Records that the operations on objects store are in place. -/
theorem inPlace_of_recorded (recorded : before.Recorded) : InPlace before := by
  intro key record metadata _ found read
  obtain ⟨identity, _, _, own, other, readAgain, describes⟩ := recorded key record found
  obtain rfl := Except.ok.inj (read.symm.trans readAgain)
  exact ⟨identity, own, describes.identity?_eq⟩

/-- What is kept is live afterwards. -/
theorem Restores.live (restores : Restores before after)
    (found : after.records.get? key = some record) :
    before.records.get? key = some record ∧ Live before key ∧ Live after key := by
  obtain ⟨held, live⟩ := (restores.records key record).1 found
  refine ⟨held, live, Contents.live_of_eq ?_ (found.trans held.symm) live⟩
  exact Option.ext fun payload => (restores.payloads key payload).trans (and_iff_left live)

/-- What a reconciliation must leave is usable. -/
theorem Restores.usable (restores : Restores before after) : after.Usable :=
  fun _ _ found => (restores.live found).2.2

/-- Records that are kept are in place if they were so. -/
theorem InPlace.identity?_of_restores (inPlace : InPlace before) (restores : Restores before after)
    (found : after.records.get? key = some record) {metadata : Metadata}
    (read : Metadata.decode record = .ok metadata) :
    ∃ identity : Uuid, identity.key = key ∧ metadata.identity? = some identity := by
  obtain ⟨held, live, _⟩ := restores.live found
  exact inPlace key record metadata live held read

/-- Records that are kept give identities if they were in place. -/
theorem InPlace.identified (inPlace : InPlace before) (restores : Restores before after)
    (identity : Uuid) : after.Identified identity := by
  intro metadata found
  obtain ⟨record, held, read⟩ := Contents.metadataOf_eq_ok_iff.1 found
  obtain ⟨own, _, given⟩ := inPlace.identity?_of_restores restores held read
  exact Option.isSome_iff_exists.2 ⟨own, given⟩

/-- If all live records were in place, whatever is selected of those that are kept can be
fetched. -/
theorem InPlace.retrievable (inPlace : InPlace before) (restores : Restores before after)
    (selection : Selection) : after.Retrievable selection := by
  intro key record found _
  obtain ⟨metadata, _, read, _⟩ := restores.usable.describes found
  obtain ⟨identity, rfl, _⟩ := inPlace.identity?_of_restores restores found read
  exact ⟨identity, Uuid.ofKey_key identity, inPlace.identified restores identity⟩

/-- Every record that is kept is fetched as an object of the identity whose key it stands under,
exactly if all live records were in place before. -/
theorem Restores.fetched_iff (restores : Restores before after) :
    (∀ key record, after.records.get? key = some record → ∃ identity object,
      Uuid.key identity = key ∧ after.objectOf identity = .ok object ∧
        object.identity = identity) ↔ InPlace before := by
  constructor
  · intro fetched key record metadata live held read
    have kept := (restores.records key record).2 ⟨held, live⟩
    obtain ⟨identity, object, rfl, found, own⟩ := fetched key record kept
    have stored := Contents.metadataOf_eq_ok_iff.2 ⟨record, kept, read⟩
    refine ⟨identity, rfl, ?_⟩
    rw [← own]
    exact Contents.identity?_of_objectOf stored found
  · intro inPlace key record found
    obtain ⟨metadata, _, read, _⟩ := restores.usable.describes found
    obtain ⟨identity, rfl, given⟩ := inPlace.identity?_of_restores restores found read
    have stored := Contents.metadataOf_eq_ok_iff.2 ⟨record, found, read⟩
    obtain ⟨object, fetched⟩ :=
      (restores.usable.readsIf_objectOf stored).exists_ok_iff.2 (by rw [given]; rfl)
    have own := (Contents.identity?_of_objectOf stored fetched).symm.trans given
    exact ⟨identity, object, rfl, fetched, Option.some.inj own⟩

/-- Names that are kept or restored lead to identities if all live records were in place. -/
theorem InPlace.key_of_names (inPlace : InPlace before) (restores : Restores before after)
    (found : after.names.get? key = some holder) : ∃ identity : Uuid, identity.key = holder := by
  obtain ⟨claims, _⟩ := (restores.names key holder).1 found
  obtain ⟨_, record, metadata, _, _, held, read, _⟩ := id claims
  obtain ⟨identity, own, _⟩ := inPlace holder record metadata ⟨key, claims⟩ held read
  exact ⟨identity, own⟩

/-- If all live records were in place, no name leads to what cannot be read. -/
theorem InPlace.objectNamed_ne_undecodable (inPlace : InPlace before)
    (restores : Restores before after) (name owner : String) (cause : DataError) :
    after.objectNamed name owner ≠ .error (.undecodable cause) := by
  unfold Contents.objectNamed Contents.resolved Contents.identityOf Uuid.normalise
  cases Uuid.parse? owner with
  | none => simp [bind, Except.bind, Except.mapError]
  | some identifier =>
      by_cases long : Object.nameLimit < name.utf8ByteSize
      · simp [bind, Except.bind, Except.mapError, long]
      cases held : after.names.get? (nameKey name identifier.toText) with
      | none => simp [Contents.required, bind, Except.bind, Except.mapError, long, held]
      | some holder =>
          obtain ⟨identity, rfl⟩ := inPlace.key_of_names restores held
          have fetched : after.objectOf identity ≠ .error (.undecodable cause) := by
            obtain missing | ⟨metadata, _, found, _⟩ := restores.usable.metadataOf_cases identity
            · rw [Contents.objectOf_of_metadataOf_error missing]
              simp
            · obtain ⟨object, fetched⟩ := (restores.usable.readsIf_objectOf found).exists_ok_iff.2
                (inPlace.identified restores identity metadata found)
              simp [fetched]
          simpa [Contents.required, bind, Except.bind, Except.mapError, long, held] using fetched

/-- On an engine in memory a reconciliation succeeds, whatever there is. -/
theorem run_reconcile_inMemory (bucket : Bucket) (contents : Contents) :
    ∃ report events, bucket.reconcile.run.run { contents }
      = (.ok report, { contents := reconciled contents, events }) :=
  ⟨_, run_reconcile_calm bucket contents []⟩

/-- Whatever an engine in memory holds, a reconciliation succeeds, and what it leaves is usable.
Every record stands under the key of an identity by which its object is fetched, exactly if all
live records were in place before. Then every valid selection fetches and deletes its objects,
and no name leads to what cannot be read. -/
theorem works_after_reconcile (bucket : Bucket) (contents : Contents) :
    let left := (bucket.reconcile.run.run { contents }).2
    (∃ report, (bucket.reconcile.run.run { contents }).1 = .ok report) ∧ bucket.WorksOn left ∧
      ((∀ key record, left.contents.records.get? key = some record → ∃ identity object,
        Uuid.key identity = key ∧ ((bucket.fetch identity).run.run left).1 = .ok object ∧
          object.identity = identity) ↔ InPlace contents) ∧
      (InPlace contents →
        (∀ selection : Selection, selection.validate = .ok () →
          (∃ objects, ((bucket.fetchSelected selection).run.run left).1 = .ok objects) ∧
            ∃ count, ((bucket.deleteSelected selection).run.run left).1 = .ok count) ∧
        ∀ name owner cause,
          ((bucket.fetchNamed name owner).run.run left).1 ≠ .error (.undecodable cause)) := by
  obtain ⟨report, events, run⟩ := run_reconcile_inMemory bucket contents
  rw [run]
  have restores := restores_reconciled contents
  have works := restores.usable.worksOn bucket events
  refine ⟨⟨report, rfl⟩, works, ?_, fun inPlace => ⟨?_, ?_⟩⟩
  · have shown : ∀ identity,
        ((bucket.fetch identity).run.run { contents := reconciled contents, events }).1
          = (reconciled contents).objectOf identity :=
      fun identity => Leads.value_inMemory (bucket.leads_fetch identity)
    simp only [shown]
    exact restores.fetched_iff
  · intro selection valid
    have retrievable := inPlace.retrievable restores selection
    constructor
    · exact (works.fetchesSelected selection valid).exists_ok_iff.2 retrievable
    · apply (works.deletesSelected selection valid).exists_ok_iff.2
      intro key record found selected
      obtain ⟨identity, spelled, _⟩ := retrievable key record found selected
      exact ⟨identity, spelled⟩
  · intro name owner
    rw [Leads.value_inMemory (bucket.leads_fetchNamed name owner)]
    exact inPlace.objectNamed_ne_undecodable restores name owner

/-- A report whose name is missing stands beside a record that cannot be read. Afterwards every
valid selection is run. -/
theorem works_after_repaired_report :
    let report := Object.report.entry
    let complete := (({} : Contents).withPayloads [report]).withRecord report
    let contents := { complete with records := complete.records.insert [98] [255] }
    let bucket : Bucket := ⟨{}, none⟩
    let left := (bucket.reconcile.run.run { contents }).2
    contents.sizes = [1, 0, 2] ∧ left.contents.sizes = [1, 1, 1] ∧ InPlace contents ∧
      bucket.WorksOn left ∧
      (∀ selection : Selection, selection.validate = .ok () →
        (∃ objects, ((bucket.fetchSelected selection).run.run left).1 = .ok objects) ∧
          ∃ count, ((bucket.deleteSelected selection).run.run left).1 = .ok count) ∧
      ∀ name owner cause,
        ((bucket.fetchNamed name owner).run.run left).1 ≠ .error (.undecodable cause) := by
  intro report complete contents bucket left
  have inPlace : InPlace contents := by
    intro key record metadata _ held read
    rw [OrderedMap.get?_insert_eq] at held
    split at held
    · obtain rfl := Option.some.inj held
      have broken : Metadata.decode [255] = .error (.malformed .truncated) := by decide +kernel
      exact absurd (broken.symm.trans read) (by simp)
    · change (OrderedMap.empty.insert report.key report.record).get? key = some record at held
      rw [OrderedMap.get?_insert_eq] at held
      split at held
      · rename_i own
        obtain rfl := Option.some.inj held
        have written : Metadata.decode report.record = .ok Object.report.metadata := by
          decide +kernel
        obtain rfl := Except.ok.inj (written.symm.trans read)
        exact ⟨Object.report.identity, own.symm, by decide +kernel⟩
      · exact nomatch held
  obtain ⟨_, works, _, served⟩ := works_after_reconcile bucket contents
  exact ⟨by decide +kernel, by decide +kernel, inPlace, works, served inPlace⟩

/-- Records with a name, an owner and content that a reconciliation keeps, although one stands
under no identity's key, one gives another identity, and one gives none. The objects of the
owner of the first can neither be fetched nor deleted by a selection. -/
theorem exists_kept_record_that_misleads :
    ∃ (bucket : Bucket) (contents : Contents) (report : Report),
      let left := (bucket.reconcile.run.run { contents }).2
      (bucket.reconcile.run.run { contents }).1 = .ok report ∧
        (∃ key record, left.contents.records.get? key = some record ∧
          ∀ identity : Uuid, identity.key ≠ key) ∧
        (∃ identity object, ((bucket.fetch identity).run.run left).1 = .ok object ∧
          object.identity ≠ identity) ∧
        (∃ identity cause,
          ((bucket.fetch identity).run.run left).1 = .error (.undecodable cause)) ∧
        ∃ selection : Selection, selection.validate = .ok () ∧
          (∃ cause, ((bucket.fetchSelected selection).run.run left).1
            = .error (.undecodable cause)) ∧
          ∃ cause, ((bucket.deleteSelected selection).run.run left).1
            = .error (.undecodable cause) := by
  let anonymous := Metadata.ofEntries [("name", "notice"), ("owner", Uuid.toText ⟨6⟩)]
  let records : OrderedMap Bytes Bytes :=
    ((OrderedMap.empty.insert [106, 117, 110, 107] Object.report.metadata.encode).insert
      (Uuid.key ⟨2⟩) Object.summary.metadata.encode).insert (Uuid.key ⟨5⟩) anonymous.encode
  let payloads : OrderedMap Bytes Bytes :=
    ((OrderedMap.empty.insert [106, 117, 110, 107] []).insert (Uuid.key ⟨2⟩) []).insert
      (Uuid.key ⟨5⟩) []
  refine ⟨⟨{}, none⟩, { payloads, records }, ⟨0, 0, 3, 0⟩, by decide +kernel, ?_, ?_, ?_, ?_⟩
  · refine ⟨[106, 117, 110, 107], Object.report.metadata.encode, by decide +kernel, ?_⟩
    intro identity same
    have read := same ▸ identity.ofKey_key
    have misspelled : Uuid.ofKey [106, 117, 110, 107] = .error (.invalidUuid "id" "junk") := by
      decide +kernel
    exact absurd (misspelled.symm.trans read) (by simp)
  · exact ⟨⟨2⟩, Object.summary.sealed, by decide +kernel, by decide⟩
  · exact ⟨⟨5⟩, .missingField "id", by decide +kernel⟩
  · exact ⟨({} : Selection).owner (Uuid.toText ⟨3⟩), by decide +kernel,
      ⟨.invalidUuid "id" "junk", by decide +kernel⟩, .invalidUuid "id" "junk", by decide +kernel⟩

end Reconciliation

end Depot
