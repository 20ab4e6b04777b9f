import Depot.Proofs.Bucket.Engines
import Depot.Proofs.Consistency.Listing
import Depot.Proofs.Consistency.Recovery

/-!
# Selections as filters

On consistent contents, and where no call is refused, running a selection is filtering the
stored objects by it. What a selection finds goes through a scan of the records, a match on
their decoded form and a second look at every object; deleting goes through three regions for
every object that the scan has found. All of this is told by one list of objects. A selection
that is not valid is refused before anything is read.
-/

namespace Depot

namespace Contents

variable {contents after : Contents} {selection : Selection} {objects : List Object}
  {wanted : Object → Prop} {object : Object} {identity : Uuid} {metadata : Metadata}

/-- In consistent contents, what has metadata is the identity of an object that is held. -/
theorem Consistent.exists_holds (consistent : contents.Consistent)
    (found : contents.metadataOf identity = .ok metadata) :
    ∃ payload, contents.Holds ⟨identity, metadata, payload, true⟩ := by
  obtain ⟨record, held, read⟩ := metadataOf_eq_ok_iff.1 found
  have paid := consistent.sameKeys identity.key
  rw [OrderedMap.contains_eq_isSome, OrderedMap.contains_eq_isSome, held] at paid
  obtain ⟨payload, payloadHeld⟩ := Option.isSome_iff_exists.1 paid
  exact ⟨payload, ⟨record, held, read⟩, payloadHeld, rfl⟩

/-- In consistent contents, a valid selection selects the identities of the objects that are
held and that it selects, and all of them are fetched. -/
theorem Consistent.selected_listed (consistent : contents.Consistent)
    (valid : selection.validate = .ok ()) :
    ∃ objects, contents.Lists (fun object => selection.selects object.metadata = true) objects ∧
      contents.selected selection = .ok (objects.map Object.identity) ∧
      contents.objectsSelected selection = .ok objects := by
  obtain ⟨identities, selects, ascending, members⟩ := consistent.recorded.selected_ok valid
  have recorded : ∀ identity ∈ identities, contents.RecordedAt identity := fun identity _ =>
    consistent.recorded.recordedAt identity
  have held : ∀ identity ∈ identities,
      ∃ object, contents.objectOf identity = .ok object ∧ object.identity = identity := by
    intro identity member
    obtain ⟨metadata, found, _⟩ := (members identity).1 member
    obtain ⟨payload, holds⟩ := consistent.exists_holds found
    exact ⟨_, (recorded identity member).objectOf_eq_ok_iff.2 ⟨rfl, holds⟩, rfl⟩
  refine ⟨_, (lists_filterMap recorded ascending).congr fun object holds => ?_, ?_, ?_⟩
  · rw [members]
    have found : contents.metadataOf object.identity = .ok object.metadata :=
      metadataOf_eq_ok_iff.2 holds.record
    constructor
    · rintro ⟨metadata, foundAgain, selected⟩
      rwa [Except.ok.inj (foundAgain.symm.trans found)] at selected
    · exact fun selected => ⟨object.metadata, found, selected⟩
  · rw [map_identity_filterMap held, selects]
  · rw [objectsSelected, selects]
    exact objectsOf_eq recorded

/-- The objects of a list all have their records. -/
theorem Lists.marks (lists : contents.Lists wanted objects) (recorded : contents.Recorded) :
    contents.Marks (objects.map Object.identity) objects where
  distinct := lists.ascending.nodup
  recorded identity _ := recorded.recordedAt identity
  present := by
    refine (List.filter_eq_self.2 fun identity member => ?_).symm
    obtain ⟨object, listed, rfl⟩ := List.mem_map.1 member
    obtain ⟨record, held, _⟩ := ((lists.complete object).1 listed).1.record
    exact Option.isSome_iff_exists.2 ⟨record, held⟩
  given object listed := metadataOf_eq_ok_iff.2 ((lists.complete object).1 listed).1.record

/-- In consistent contents, the name of an object that is held leads to it. -/
theorem Consistent.get?_nameKey (consistent : contents.Consistent)
    (holds : contents.Holds object) :
    contents.names.get? object.entry.nameKey = some object.identity.key := by
  obtain ⟨name, owner, describes, stores⟩ :=
    consistent.recorded.describes (metadataOf_eq_ok_iff.2 holds.record)
  exact (consistent.named _ _).2 ⟨_, _, _, stores, describes.nameKey_eq.symm, rfl⟩

/-- So leaving out listed objects is to remove three entries of each, and no other. -/
theorem Consistent.get?_of_leavesOut (consistent : contents.Consistent)
    (lists : contents.Lists wanted objects) (leavesOut : contents.LeavesOut objects after)
    (region : Region) (key : Bytes) :
    after.get? region key
      = if key ∈ objects.map fun object => object.entry.keyIn region then none
        else contents.get? region key := by
  refine Option.ext fun value => ?_
  rw [leavesOut]
  by_cases member : key ∈ objects.map fun object => object.entry.keyIn region
  · rw [if_pos member]
    obtain ⟨object, listed, rfl⟩ := List.mem_map.1 member
    refine iff_of_false ?_ (by simp)
    rintro ⟨held, apart⟩
    refine apart object listed ⟨rfl, ?_⟩
    rintro rfl
    have own := consistent.get?_nameKey ((lists.complete object).1 listed).1
    exact Option.some.inj (held.symm.trans own)
  · rw [if_neg member, and_iff_left]
    exact fun object listed owns => member (List.mem_map.2 ⟨object, listed, owns.1.symm⟩)

/-- Once all wanted objects are left out, none is listed any more. -/
theorem Lists.eq_nil_of_leavesOut {others : List Object} (lists : contents.Lists wanted objects)
    (leavesOut : contents.LeavesOut objects after) (listsAfter : after.Lists wanted others) :
    others = [] := by
  refine List.eq_nil_iff_forall_not_mem.2 fun object listed => ?_
  obtain ⟨⟨⟨record, recordAfter, read⟩, payloadAfter, isSealed⟩, want⟩ :=
    (listsAfter.complete object).1 listed
  obtain ⟨held, apart⟩ := (leavesOut _ _ _).1 recordAfter
  obtain ⟨paid, _⟩ := (leavesOut _ _ _).1 payloadAfter
  have listedBefore : object ∈ objects :=
    (lists.complete object).2 ⟨⟨⟨record, held, read⟩, paid, isSealed⟩, want⟩
  exact apart object listedBefore ⟨rfl, fun wrong => absurd wrong (by simp)⟩

/-- Three objects for single runs, two of them of the same owner. -/
def filed : Contents :=
  ({} : Contents).withEntries ([Object.summary, Object.report, Object.notice].map Object.entry)

theorem consistent_filed : filed.Consistent := by
  refine consistent_empty.withEntries ?_ ⟨?_, ?_⟩ ?_ ?_
  · have made : ∀ object ∈ [Object.summary, Object.report, Object.notice], object.Made := by
      simp [Object.made_summary, Object.made_report, Object.made_notice]
    have storable : ∀ object ∈ [Object.summary, Object.report, Object.notice],
        object.isSealed = false ∧ object.validate false = .ok () := by decide +kernel
    refine List.forall_mem_map.2 fun object member => ?_
    exact Entry.sound (made object member) ⟨(storable object member).1, (storable object member).2⟩
  · decide +kernel
  · decide +kernel
  · decide +kernel
  · decide +kernel

end Contents

namespace Bucket

variable {bucket : Bucket} {selection : Selection} {store : Store} {contents : Contents}
  {objects : List Object}

/-- Where these are the objects for a selection, this is what a bucket makes of it. -/
structure Filters (bucket : Bucket) (selection : Selection) (store : Store)
    (objects : List Object) : Prop where
  fetched : ((bucket.fetchSelected selection).run.run store).1 = .ok objects
  untouched : ((bucket.fetchSelected selection).run.run store).2.contents = store.contents
  counted : ((bucket.deleteSelected selection).run.run store).1 = .ok objects.length
  removed : ∀ region key,
    ((bucket.deleteSelected selection).run.run store).2.contents.get? region key
      = if key ∈ objects.map fun object => object.entry.keyIn region then none
        else store.contents.get? region key
  served : (bucket.run selection).run.run store = match selection.purpose with
    | .fetch => (.ok (.fetched objects), ((bucket.fetchSelected selection).run.run store).2)
    | .delete =>
      (.ok (.deleted objects.length), ((bucket.deleteSelected selection).run.run store).2)

/-- A selection is run for its purpose. -/
theorem run_run (bucket : Bucket) (selection : Selection) (store : Store) :
    (bucket.run selection).run.run store = match selection.purpose with
      | .fetch => (((bucket.fetchSelected selection).run.run store).1.map .fetched,
          ((bucket.fetchSelected selection).run.run store).2)
      | .delete => (((bucket.deleteSelected selection).run.run store).1.map .deleted,
          ((bucket.deleteSelected selection).run.run store).2) := by
  unfold run
  cases selection.purpose with
  | fetch => rw [ExceptT.run_map, StateT.run_map]; rfl
  | delete => rw [ExceptT.run_map, StateT.run_map]; rfl

/-- A selection that is not valid is not run. -/
theorem run_of_invalid {cause : DataError} (invalid : selection.validate = .error cause)
    (bucket : Bucket) : bucket.run selection = Session.fail (.invalid cause) := by
  rw [run, fetchSelected, deleteSelected, select, invalid]
  cases selection.purpose with
  | fetch => rfl
  | delete => rfl

/-- On a calm engine in memory, deleting what a selection selects leaves out the objects with
these identities. -/
theorem leads_deleteSelected_inMemory
    (selected : contents.selected selection = .ok (objects.map Object.identity))
    (marks : contents.Marks (objects.map Object.identity) objects) :
    Leads (.reliable .unrestricted) (bucket.deleteSelected selection).run contents
      fun result after => result = .ok objects.length ∧ contents.LeavesOut objects after := by
  refine Leads.follow (leads_select selection) ?_ ?_
  · rintro error after ⟨_, wrong | ⟨never, _⟩⟩
    · exact absurd (wrong.trans selected) (by simp)
    · exact never.elim
  rintro identities _ shows
  obtain rfl := Except.ok.inj (shows.eq_of_ok.symm.trans selected)
  obtain rfl := shows.1.symm
  exact leads_deleteReported_inMemory marks selection.connective

/-- On a calm engine and consistent contents, a valid selection filters the objects that are
held. What its deletion leaves is consistent again. -/
theorem exists_filters (valid : selection.validate = .ok ()) (calm : store.hazard = .none)
    (consistent : store.contents.Consistent) :
    ∃ objects,
      store.contents.Lists (fun object => selection.selects object.metadata = true) objects ∧
      bucket.Filters selection store objects ∧
      store.contents.LeavesOut objects
        ((bucket.deleteSelected selection).run.run store).2.contents ∧
      ((bucket.deleteSelected selection).run.run store).2.hazard = .none ∧
      ((bucket.deleteSelected selection).run.run store).2.contents.Consistent := by
  obtain ⟨objects, lists, selected, found⟩ := consistent.selected_listed valid
  have marks := lists.marks consistent.recorded
  have quiet : store.hazard.IsQuiet := calm ▸ Hazard.isQuiet_none
  obtain ⟨⟨untouched, shown⟩, _⟩ :=
    (@abides_fetchSelected _ _ bucket selection).outcome_of_run quiet
      (leads_fetchSelected selection)
  obtain ⟨⟨⟨counted, leavesOut⟩, deletes⟩, calmAfter⟩ :=
    (@abides_deleteSelected _ _ bucket selection).outcome_of_run quiet
      ((leads_deleteSelected_inMemory selected marks).both (leads_deleteSelected selection))
  have fetched : ((bucket.fetchSelected selection).run.run store).1 = .ok objects := by
    rcases shown with same | ⟨never, _⟩
    · exact same.trans found
    · exact never.elim
  have cleared : store.contents.Cleared (store.contents.matched selection)
      ((bucket.deleteSelected selection).run.run store).2.contents := by
    rw [counted] at deletes
    exact deletes
  refine ⟨objects, lists, ?_, leavesOut, calmAfter.trans calm, (consistent.cleared cleared).1⟩
  refine ⟨fetched, untouched, counted, consistent.get?_of_leavesOut lists leavesOut, ?_⟩
  rw [run_run, fetched, counted]
  rfl

/-- A selection that is not valid is refused, and nothing at all is done. Where no call is
refused, a valid selection on consistent contents finds exactly the objects that are held and
that it selects, each once and in the order of their keys. They are fetched completely, or
their entries are removed and no others, and then it finds nothing any more. -/
theorem selection_filters {bucket : Bucket} {selection : Selection} :
    (∀ cause, selection.validate = .error cause →
      bucket.fetchSelected selection = Session.fail (.invalid cause) ∧
      bucket.deleteSelected selection = Session.fail (.invalid cause) ∧
      bucket.run selection = Session.fail (.invalid cause)) ∧
    (selection.validate = .ok () → ∀ store : Store, store.hazard = .none →
      store.contents.Consistent →
      ∃ objects,
        store.contents.Lists (fun object => selection.selects object.metadata = true) objects ∧
        bucket.Filters selection store objects ∧
        bucket.Filters selection ((bucket.deleteSelected selection).run.run store).2 []) := by
  constructor
  · intro cause refused
    have fetching : bucket.fetchSelected selection = Session.fail (.invalid cause) := by
      rw [fetchSelected, select, refused]
      rfl
    have deleting : bucket.deleteSelected selection = Session.fail (.invalid cause) := by
      rw [deleteSelected, select, refused]
      rfl
    refine ⟨fetching, deleting, ?_⟩
    rw [run, fetching, deleting]
    cases selection.purpose with
    | fetch => rfl
    | delete => rfl
  · intro valid store calm consistent
    obtain ⟨objects, lists, filters, leavesOut, calmAfter, consistentAfter⟩ :=
      @exists_filters bucket _ _ valid calm consistent
    obtain ⟨others, listsAfter, filtersAfter, _⟩ :=
      @exists_filters bucket _ _ valid calmAfter consistentAfter
    obtain rfl := lists.eq_nil_of_leavesOut leavesOut listsAfter
    exact ⟨objects, lists, filters, filtersAfter⟩

/-- Of three objects, two belong to the owner that is selected. A selection without parameters
is not valid. -/
theorem selection_filters_filed :
    let bucket : Bucket := ⟨{}, none⟩
    let selection := ({} : Selection).owner (⟨3⟩ : Uuid).toText
    let store : Store := { contents := .filed }
    (∃ objects,
      store.contents.Lists (fun object => selection.selects object.metadata = true) objects ∧
        bucket.Filters selection store objects ∧
        bucket.Filters selection ((bucket.deleteSelected selection).run.run store).2 []) ∧
      ((bucket.fetchSelected selection).run.run store).1
        = .ok [Object.report.sealed, Object.summary.sealed] ∧
      bucket.fetchSelected {} = Session.fail (.invalid .emptySelection) :=
  ⟨selection_filters.2 (by decide +kernel) _ rfl Contents.consistent_filed, by decide +kernel,
    (selection_filters.1 _ (by decide +kernel)).1⟩

end Bucket

end Depot
