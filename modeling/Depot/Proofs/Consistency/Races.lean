import Mathlib.Data.List.Nodup
import Depot.Proofs.Consistency.Filtering

/-!
# Selections beside another writer

Between the scan that finds the identities and the looks at each object another writer may get
in. It removes whatever entries it likes, in any region, and then writes new objects completely,
perhaps under names that it has just freed. The identities are those of the contents before;
every look is at the contents after. So an object that lost an entry is passed over where that
entry is looked for, and a name that leads elsewhere by now stays.
-/

namespace Depot

/-- The region, the key and the value that a write binds, if it binds one. -/
def Write.binding? : Write → Option (Region × Bytes × Bytes)
  | .put region key value | .putNew region key value => some (region, key, value)
  | .delete _ _ => none

/-- What a write binds is bound in its place. -/
theorem Write.place_of_binding? {write : Write} {binding : Region × Bytes × Bytes}
    (binds : write.binding? = some binding) : write.place = (binding.1, binding.2.1) := by
  cases write with
  | put =>
      cases binds
      rfl
  | putNew =>
      cases binds
      rfl
  | delete => cases binds

/-- What an entry binds in every region. -/
def Entry.bindings (entry : Entry) : List (Region × Bytes × Bytes) :=
  Region.all.map fun region => (region, entry.keyIn region, entry.valueIn region)

/-- A batch first removes entries, whatever they belong to, and then writes everything of new
objects, in any order and as new keys or not. -/
structure Batch.Renews (batch : Batch) (contents : Contents) (removed : List (Region × Bytes))
    (arrivals : List Entry) : Prop where
  /-- The removals come first. What comes then are the bindings of the new objects. -/
  writes : ∃ bindings : List Write,
    batch.writes = (removed.map fun place => .delete place.1 place.2) ++ bindings ∧
      (bindings.map Write.binding?).Perm ((arrivals.flatMap Entry.bindings).map some)
  unknown : ∀ entry ∈ arrivals, contents.get? .metadata entry.key = none
  distinct : (arrivals.map Entry.identity).Nodup
  free : ∀ entry ∈ arrivals,
    (.name, entry.nameKey) ∈ removed ∨ contents.get? .name entry.nameKey = none
  apart : (arrivals.map Entry.nameKey).Nodup

namespace Contents

/-- What is stored for an identity before keeps its content and its record, except for what is
removed. -/
def Renewed (before : Contents) (removed : List (Region × Bytes)) (raced : Contents) : Prop :=
  ∀ identity : Uuid, (before.records.get? identity.key).isSome = true →
    ∀ region, region ≠ .name → raced.get? region identity.key
      = if (region, identity.key) ∈ removed then none else before.get? region identity.key

/-- An object loses neither its record nor its content to removals. -/
def Survives (removed : List (Region × Bytes)) (object : Object) : Bool :=
  (.metadata, object.identity.key) ∉ removed ∧ (.payload, object.identity.key) ∉ removed

variable {contents before raced : Contents} {batch : Batch} {removed : List (Region × Bytes)}
  {arrivals : List Entry} {selection : Selection} {objects : List Object} {object : Object}
  {wanted : Object → Prop} {region : Region} {key : Bytes}

/-! ## What the other writer leaves -/

/-- Removals remove what they name, and nothing else. -/
theorem get?_foldl_write_removed (contents : Contents) (removed : List (Region × Bytes))
    (region : Region) (key : Bytes) :
    ((removed.map fun place => Write.delete place.1 place.2).foldl write contents).get? region key
      = if (region, key) ∈ removed then none else contents.get? region key := by
  induction removed generalizing contents with
  | nil => rfl
  | cons place rest inductionHypothesis =>
      rw [List.map_cons, List.foldl_cons, inductionHypothesis]
      by_cases here : (region, key) = place
      · subst here
        have gone : (contents.write (.delete region key)).get? region key = none := by
          rw [write, get?_update, if_pos rfl, OrderedMap.get?_erase_self]
        simp [gone]
      · rw [@get?_write_of_ne _ _ _ (.delete place.1 place.2) here]
        simp [here]

/-- Bindings of free places that differ are all made, and change nothing else. -/
theorem exists_applyAll_bindings {writes : List Write}
    (binding : ∀ write ∈ writes, write.binding?.isSome = true)
    (distinct : (writes.map Write.place).Nodup)
    (free : ∀ write ∈ writes, contents.get? write.place.1 write.place.2 = none) :
    ∃ after, contents.applyAll .unrestricted writes = .ok after ∧
      ∀ region key, (region, key) ∉ writes.map Write.place →
        after.get? region key = contents.get? region key := by
  induction writes generalizing contents with
  | nil => exact ⟨contents, rfl, fun _ _ _ => rfl⟩
  | cons write rest inductionHypothesis =>
      obtain ⟨binds, bindingRest⟩ := List.forall_mem_cons.1 binding
      obtain ⟨once, distinctRest⟩ := List.nodup_cons.1 distinct
      obtain ⟨freeHere, freeRest⟩ := List.forall_mem_cons.1 free
      have done : contents.apply .unrestricted write = .ok (contents.write write) := by
        cases write with
        | put => exact apply_put_eq_ok_iff.2 ⟨rfl, rfl⟩
        | putNew => exact apply_putNew_eq_ok_iff.2 ⟨rfl, freeHere, rfl⟩
        | delete => exact absurd binds (by simp [Write.binding?])
      have stillFree : ∀ later ∈ rest,
          (contents.write write).get? later.place.1 later.place.2 = none := by
        intro later member
        refine (get?_write_of_ne fun same => once ?_).trans (freeRest later member)
        exact List.mem_map.2 ⟨later, member, same⟩
      obtain ⟨after, others, kept⟩ := inductionHypothesis bindingRest distinctRest stillFree
      refine ⟨after, applyAll_cons_eq_ok_iff.2 ⟨_, done, others⟩, fun region key elsewhere => ?_⟩
      rw [List.map_cons, List.mem_cons, not_or] at elsewhere
      exact (kept region key elsewhere.2).trans (get?_write_of_ne elsewhere.1)

/-- Entries of different identities and names have different keys in every region. -/
theorem keyIn_ne {first second : Entry} (identities : first.identity ≠ second.identity)
    (names : first.nameKey ≠ second.nameKey) (region : Region) :
    first.keyIn region ≠ second.keyIn region := by
  have keys : first.identity.key ≠ second.identity.key := fun same =>
    identities (Uuid.key_injective same)
  cases region with
  | payload => exact keys
  | name => exact names
  | metadata => exact keys

/-- New objects are written in places that all differ. -/
theorem nodup_places (distinct : (arrivals.map Entry.identity).Nodup)
    (apart : (arrivals.map Entry.nameKey).Nodup) :
    ((arrivals.flatMap Entry.bindings).map fun binding => (binding.1, binding.2.1)).Nodup := by
  rw [List.map_flatMap, List.nodup_flatMap]
  constructor
  · intro entry _
    rw [Entry.bindings, List.map_map]
    have regions : Region.all.Nodup := by decide
    exact regions.map fun first second same => (Prod.mk.inj same).1
  · refine ((List.pairwise_map.1 distinct).and (List.pairwise_map.1 apart)).imp ?_
    intro first second differ place inFirst inSecond
    simp only [Entry.bindings, List.map_map, List.mem_map] at inFirst inSecond
    obtain ⟨region, _, rfl⟩ := inFirst
    obtain ⟨other, _, same⟩ := inSecond
    simp only [Function.comp_apply, Prod.mk.injEq] at same
    obtain ⟨rfl, sameKey⟩ := same
    exact keyIn_ne differ.1 differ.2 other sameKey.symm

/-- What is bound for a new object has a place that is free once the removals are done. -/
theorem Consistent.free_of_renews (consistent : contents.Consistent)
    (renews : batch.Renews contents removed arrivals) {entry : Entry} (arrives : entry ∈ arrivals)
    (region : Region) :
    (region, entry.keyIn region) ∈ removed ∨ contents.get? region (entry.keyIn region) = none := by
  have unknown : contents.records.get? entry.identity.key = none := renews.unknown entry arrives
  cases region with
  | payload =>
      have unpaid := consistent.sameKeys entry.identity.key
      rw [OrderedMap.contains_eq_isSome, OrderedMap.contains_eq_isSome, unknown] at unpaid
      exact .inr (Option.isNone_iff_eq_none.1 (Option.isSome_eq_false_iff.1 unpaid))
  | name => exact renews.free entry arrives
  | metadata => exact .inr unknown

/-- The bindings of a batch are made for new objects, each in a place of its own. -/
theorem places_of_perm {bindings : List Write}
    (permuted : (bindings.map Write.binding?).Perm ((arrivals.flatMap Entry.bindings).map some)) :
    (∀ write ∈ bindings, write.binding?.isSome = true) ∧
      (bindings.map Write.place).Perm
        ((arrivals.flatMap Entry.bindings).map fun binding => (binding.1, binding.2.1)) := by
  have binds : ∀ write ∈ bindings, ∃ binding, write.binding? = some binding := by
    intro write member
    obtain ⟨binding, _, same⟩ :=
      List.mem_map.1 (permuted.mem_iff.1 (List.mem_map_of_mem member))
    exact ⟨binding, same.symm⟩
  refine ⟨fun write member => Option.isSome_iff_exists.2 (binds write member), ?_⟩
  let place : Option (Region × Bytes × Bytes) → Region × Bytes :=
    fun bound => bound.elim default fun binding => (binding.1, binding.2.1)
  have placed : bindings.map Write.place = (bindings.map Write.binding?).map place := by
    rw [List.map_map]
    refine List.map_congr_left fun write member => ?_
    obtain ⟨binding, same⟩ := binds write member
    rw [Function.comp_apply, same]
    exact Write.place_of_binding? same
  have permutedPlaces := permuted.map place
  rwa [← placed, List.map_map] at permutedPlaces

/-- The other writer's batch is committed, and touches what is stored by its removals only. -/
theorem Consistent.exists_renewed (consistent : contents.Consistent)
    (renews : batch.Renews contents removed arrivals) :
    ∃ raced, contents.commit .unrestricted batch = .ok raced ∧
      contents.Renewed removed raced := by
  obtain ⟨bindings, written, permuted⟩ := renews.writes
  obtain ⟨binding, places⟩ := places_of_perm permuted
  let cleared := (removed.map fun place => Write.delete place.1 place.2).foldl write contents
  have removes : contents.applyAll .unrestricted
      (removed.map fun place => .delete place.1 place.2) = .ok cleared := by
    refine applyAll_of_sure (List.forall_mem_map.2 fun place _ => ?_)
    rfl
  -- every place that is bound is that of a new object
  have arriving : ∀ place ∈ bindings.map Write.place,
      ∃ entry ∈ arrivals, place = (place.1, entry.keyIn place.1) := by
    intro place member
    obtain ⟨binding, among, rfl⟩ := List.mem_map.1 (places.mem_iff.1 member)
    obtain ⟨entry, arrives, own⟩ := List.mem_flatMap.1 among
    obtain ⟨region, _, rfl⟩ := List.mem_map.1 own
    exact ⟨entry, arrives, rfl⟩
  have free : ∀ write ∈ bindings, cleared.get? write.place.1 write.place.2 = none := by
    intro write member
    obtain ⟨entry, arrives, same⟩ := arriving write.place (List.mem_map_of_mem member)
    rw [same, get?_foldl_write_removed]
    rcases consistent.free_of_renews renews arrives write.place.1 with gone | unbound
    · exact if_pos gone
    · rw [unbound, ite_self]
  obtain ⟨raced, committed, kept⟩ := exists_applyAll_bindings binding
    (places.nodup_iff.2 (nodup_places renews.distinct renews.apart)) free
  refine ⟨raced, ?_, fun identity stored region content => ?_⟩
  · rw [commit, written]
    exact applyAll_append_eq_ok_iff.2 ⟨cleared, removes, committed⟩
  · rw [kept region identity.key, get?_foldl_write_removed]
    intro member
    obtain ⟨entry, arrives, same⟩ := arriving _ member
    have own : identity.key = entry.keyIn region := (Prod.mk.inj same).2
    have unknown : contents.records.get? entry.identity.key = none := renews.unknown entry arrives
    cases region with
    | name => exact content rfl
    | payload =>
        rw [own, Entry.keyIn_payload, unknown] at stored
        exact absurd stored (by simp)
    | metadata =>
        rw [own, Entry.keyIn_metadata, unknown] at stored
        exact absurd stored (by simp)

/-! ## What is found and left out afterwards -/

/-- Objects of a list that are kept are listed. -/
theorem Lists.filter (lists : contents.Lists wanted objects) (keep : Object → Bool) :
    contents.Lists (fun object => wanted object ∧ keep object = true) (objects.filter keep) where
  complete object := by rw [List.mem_filter, lists.complete, and_assoc]
  ascending := lists.ascending.sublist (List.filter_sublist.map _)

/-- An object survives if one of its identity is held afterwards. -/
theorem Renewed.survives (renewed : before.Renewed removed raced) {other : Object}
    (holds : before.Holds object) (holdsAfter : raced.Holds other)
    (same : other.identity = object.identity) : Survives removed object = true := by
  obtain ⟨record, held, _⟩ := holds.record
  have kept := renewed object.identity (Option.isSome_iff_exists.2 ⟨record, held⟩)
  obtain ⟨⟨recordAfter, heldAfter, _⟩, paidAfter, _⟩ := holdsAfter
  rw [same, kept .metadata (by simp)] at heldAfter
  rw [same, kept .payload (by simp)] at paidAfter
  rw [Survives, decide_eq_true_iff]
  constructor
  · intro gone
    rw [if_pos gone] at heldAfter
    exact absurd heldAfter (by simp)
  · intro gone
    rw [if_pos gone] at paidAfter
    exact absurd paidAfter (by simp)

/-- An object that was held and survives is held afterwards. -/
theorem Renewed.holds (renewed : before.Renewed removed raced) (holds : before.Holds object)
    (survives : Survives removed object = true) : raced.Holds object := by
  obtain ⟨⟨record, held, read⟩, paid, isSealed⟩ := holds
  have kept := renewed object.identity (Option.isSome_iff_exists.2 ⟨record, held⟩)
  rw [Survives, decide_eq_true_iff] at survives
  refine ⟨⟨record, ?_, read⟩, ?_, isSealed⟩
  · rw [kept .metadata (by simp), if_neg survives.1, held]
  · rw [kept .payload (by simp), if_neg survives.2, paid]

/-- What is recorded for an object that was held is still a record of a stored object. -/
theorem Renewed.recordedAt (renewed : before.Renewed removed raced) (recorded : before.Recorded)
    (holds : before.Holds object) : raced.RecordedAt object.identity := by
  obtain ⟨own, held, _⟩ := holds.record
  have kept := renewed object.identity (Option.isSome_iff_exists.2 ⟨own, held⟩) .metadata (by simp)
  intro record found
  have found : raced.get? .metadata object.identity.key = some record := found
  rw [kept] at found
  split at found
  · exact absurd found (by simp)
  · exact recorded.recordedAt object.identity record found

/-- An object that was held is fetched if it survives, and otherwise none is. -/
theorem Renewed.toOption_objectOf (renewed : before.Renewed removed raced)
    (recorded : before.Recorded) (holds : before.Holds object) :
    (raced.objectOf object.identity).toOption
      = if Survives removed object = true then some object else none := by
  have recordedAt := renewed.recordedAt recorded holds
  split
  · rename_i survives
    exact toOption_eq_some_iff.2
      (recordedAt.objectOf_eq_ok_iff.2 ⟨rfl, renewed.holds holds survives⟩)
  · rename_i gone
    refine Option.eq_none_iff_forall_ne_some.2 fun other found => gone ?_
    obtain ⟨same, holdsAfter⟩ := recordedAt.objectOf_eq_ok_iff.1 (toOption_eq_some_iff.1 found)
    exact renewed.survives holds holdsAfter same

/-- Of the objects of a list, those that survive are fetched. -/
theorem Renewed.objectsOf_eq (renewed : before.Renewed removed raced)
    (recorded : before.Recorded) (lists : before.Lists wanted objects) :
    raced.objectsOf (objects.map Object.identity)
      = .ok (objects.filter (Survives removed)) := by
  have holds : ∀ object ∈ objects, before.Holds object := fun object listed =>
    ((lists.complete object).1 listed).1
  rw [Contents.objectsOf_eq]
  · rw [List.filterMap_map, ← List.filterMap_eq_filter]
    refine congrArg Except.ok (List.filterMap_congr fun object listed => ?_)
    rw [Function.comp_apply, renewed.toOption_objectOf recorded (holds object listed)]
    rfl
  · exact List.forall_mem_map.2 fun object listed =>
      renewed.recordedAt recorded (holds object listed)

/-- Of the objects of a list, those that keep their records can be removed. -/
theorem Renewed.marks (renewed : before.Renewed removed raced)
    (recorded : before.Recorded) (lists : before.Lists wanted objects) :
    raced.Marks (objects.map Object.identity)
      (objects.filter fun object => (.metadata, object.identity.key) ∉ removed) := by
  have holds : ∀ object ∈ objects, before.Holds object := fun object listed =>
    ((lists.complete object).1 listed).1
  have record : ∀ object ∈ objects, raced.get? .metadata object.identity.key
      = if (.metadata, object.identity.key) ∈ removed then none
        else before.get? .metadata object.identity.key := by
    intro object listed
    obtain ⟨record, held, _⟩ := (holds object listed).record
    exact renewed object.identity (Option.isSome_iff_exists.2 ⟨record, held⟩) .metadata (by simp)
  refine ⟨lists.ascending.nodup, ?_, ?_, ?_⟩
  · exact List.forall_mem_map.2 fun object listed =>
      renewed.recordedAt recorded (holds object listed)
  · rw [List.filter_map]
    refine congrArg (List.map Object.identity) (List.filter_congr fun object listed => ?_)
    obtain ⟨own, held, _⟩ := (holds object listed).record
    show _ = (raced.get? .metadata object.identity.key).isSome
    rw [record object listed, held]
    by_cases gone : (Region.metadata, object.identity.key) ∈ removed
    · simp [gone]
    · simp [gone]
  · intro object kept
    obtain ⟨listed, stays⟩ := List.mem_filter.1 kept
    obtain ⟨own, held, read⟩ := (holds object listed).record
    have found := record object listed
    rw [if_neg (of_decide_eq_true stays), held] at found
    exact metadataOf_eq_ok_iff.2 ⟨own, found, read⟩

end Contents

namespace Session

variable {α : Type} {store : Store} {batch : Batch} {raced : Contents}

/-- Another writer's batch follows the scan of the records. -/
theorem run_scan_racing (racing : store.hazard = .racing (some batch))
    (committed : store.contents.commit store.keyRule batch = .ok raced)
    {visit : OrderedMap Bytes Bytes → Session α} {value : α}
    (visited : (visit store.contents.records).run.run store = (.ok value, store)) :
    (scan .metadata visit).run.run store
      = (.ok value, { store with contents := raced, hazard := .racing none }) := by
  obtain ⟨contents, keyRule, hazard, events⟩ := store
  obtain rfl : hazard = .racing (some batch) := racing
  rw [scan, run_bind]
  show (visit contents.records >>= fun result => _).run.run _ = _
  rw [run_bind, visited]
  show (Session.apply batch >>= fun _ => pure value).run.run
    { contents, keyRule, hazard := .racing none, events } = _
  rw [run_bind, run_apply]
  dsimp only
  rw [committed]
  rfl

end Session

namespace Bucket

variable {β : Type} {bucket : Bucket} {selection : Selection} {store : Store} {batch : Batch}
  {raced : Contents} {identities : List Uuid}

/-- A selection selects from the contents before another writer's batch, and leaves those
after it. -/
theorem run_select_racing (racing : store.hazard = .racing (some batch))
    (committed : store.contents.commit store.keyRule batch = .ok raced)
    (selected : store.contents.selected selection = .ok identities) :
    (bucket.select selection).run.run store
      = (.ok identities, { store with contents := raced, hazard := .racing none }) := by
  obtain ⟨_, valid, matched⟩ := bind_eq_ok_iff.1 selected
  have visited : (Session.decoded (matching selection store.contents.records.entries)).run.run store
      = (.ok identities, store) := congrArg (·, store) matched
  have accepted : (Session.accept selection.validate).run.run store = (.ok (), store) :=
    congrArg (·, store) valid
  rw [select, run_bind, accepted]
  exact Session.run_scan_racing racing committed visited

/-- What follows a selection is done on the contents after another writer's batch. -/
theorem outcome_of_race {session : Session β} {rest : List Uuid → Session β}
    {outcome : Except StoreError β → Contents → Prop}
    (selects : session = bucket.select selection >>= rest)
    (racing : store.hazard = .racing (some batch))
    (committed : store.contents.commit store.keyRule batch = .ok raced)
    (selected : store.contents.selected selection = .ok identities)
    (abides : Abides store.keyRule (rest identities).run raced)
    (leads : Leads (.reliable .unrestricted) (rest identities).run raced outcome) :
    outcome (session.run.run store).1 (session.run.run store).2.contents := by
  rw [selects, run_bind, run_select_racing racing committed selected]
  let after : Store := { store with contents := raced, hazard := .racing none }
  exact (@Abides.outcome_of_run _ after _ outcome abides Hazard.isQuiet_racing leads).1

/-- What is fetched is looked at after the other writer's batch. -/
theorem run_fetchSelected_racing {objects : List Object}
    (racing : store.hazard = .racing (some batch))
    (committed : store.contents.commit store.keyRule batch = .ok raced)
    (selected : store.contents.selected selection = .ok identities)
    (found : raced.objectsOf identities = .ok objects) :
    ((bucket.fetchSelected selection).run.run store).1 = .ok objects ∧
      ((bucket.fetchSelected selection).run.run store).2.contents = raced := by
  have selects : bucket.fetchSelected selection = bucket.select selection >>= _ := rfl
  obtain ⟨same, shown | ⟨never, _⟩⟩ := outcome_of_race selects racing committed selected
    (abides_fetchReported identities selection.connective)
    (leads_fetchReported identities selection.connective)
  · exact ⟨shown.trans found, same⟩
  · exact never.elim

/-- What a bucket makes of a selection if another writer's batch, which makes these removals and
leaves the contents `raced`, gets in between the scan and the looks. -/
structure Tolerates (bucket : Bucket) (selection : Selection) (store : Store)
    (removed : List (Region × Bytes)) (raced : Contents) : Prop where
  fetched : ∃ objects,
    store.contents.Lists (fun object => selection.selects object.metadata = true ∧
      (.metadata, object.identity.key) ∉ removed ∧
      (.payload, object.identity.key) ∉ removed) objects ∧
    ((bucket.fetchSelected selection).run.run store).1 = .ok objects ∧
    ((bucket.fetchSelected selection).run.run store).2.contents = raced
  /-- Deleted and counted are those that kept their records. Their content and their record
  are gone, and their names unless they lead elsewhere by then. -/
  deleted : ∃ objects,
    store.contents.Lists (fun object => selection.selects object.metadata = true ∧
      (.metadata, object.identity.key) ∉ removed) objects ∧
    ((bucket.deleteSelected selection).run.run store).1 = .ok objects.length ∧
    raced.LeavesOut objects ((bucket.deleteSelected selection).run.run store).2.contents

/-- On consistent contents, no valid selection fails because another writer gets in between. -/
theorem selection_tolerates_race {removed : List (Region × Bytes)} {arrivals : List Entry}
    (inMemory : store.keyRule = .unrestricted) (racing : store.hazard = .racing (some batch))
    (consistent : store.contents.Consistent)
    (renews : batch.Renews store.contents removed arrivals)
    (valid : selection.validate = .ok ()) :
    ∃ raced, store.contents.commit .unrestricted batch = .ok raced ∧
      bucket.Tolerates selection store removed raced := by
  obtain ⟨raced, committed, renewed⟩ := consistent.exists_renewed renews
  obtain ⟨objects, lists, selected, _⟩ := consistent.selected_listed valid
  have committedHere : store.contents.commit store.keyRule batch = .ok raced := inMemory ▸ committed
  have found := renewed.objectsOf_eq consistent.recorded lists
  have marks := renewed.marks consistent.recorded lists
  have survivors := lists.filter (Contents.Survives removed)
  have targets := lists.filter fun object => (.metadata, object.identity.key) ∉ removed
  have selects : bucket.deleteSelected selection = bucket.select selection >>= _ := rfl
  refine ⟨raced, committed, ⟨_, survivors.congr ?_, ?_⟩, ⟨_, targets.congr ?_, ?_⟩⟩
  · exact fun object _ => and_congr_right fun _ => decide_eq_true_iff
  · exact run_fetchSelected_racing racing committedHere selected found
  · exact fun object _ => and_congr_right fun _ => decide_eq_true_iff
  · exact outcome_of_race selects racing committedHere selected
      (abides_deleteReported _ selection.connective)
      (leads_deleteReported_inMemory marks selection.connective)

/-- The report loses its name and its content to another report of the same name. Its record is
deleted nevertheless, and the name stays with the other report. -/
theorem selection_tolerates_second_report :
    let bucket : Bucket := ⟨{}, none⟩
    let selection := ({} : Selection).owner (⟨3⟩ : Uuid).toText
    let report := Object.report.entry
    let second := Object.secondReport.entry
    let removed := [(Region.name, report.nameKey), (Region.payload, report.key)]
    let batch : Batch :=
      ⟨(removed.map fun place => .delete place.1 place.2) ++ second.fullWrite.writes⟩
    let store : Store := { contents := .filed, hazard := .racing (some batch) }
    let after := ((bucket.deleteSelected selection).run.run store).2.contents
    (∃ raced, store.contents.commit .unrestricted batch = .ok raced ∧
        bucket.Tolerates selection store removed raced) ∧
      after.get? .metadata report.key = none ∧
      after.get? .name second.nameKey = some second.key := by
  intro bucket selection report second removed batch store after
  have renews : batch.Renews store.contents removed [second] := by
    refine ⟨⟨_, rfl, ?_⟩, ?_, ?_, ?_, ?_⟩
    · decide +kernel
    · decide +kernel
    · decide +kernel
    · decide +kernel
    · decide +kernel
  exact ⟨selection_tolerates_race rfl rfl Contents.consistent_filed renews (by decide +kernel),
    by decide +kernel⟩

end Bucket

end Depot
