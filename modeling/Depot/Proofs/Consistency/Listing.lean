import Depot.Proofs.Consistency.Usability

/-!
# Objects that are listed, and objects that are left out

What a selection finds is told as a list: the objects that are held and wanted, each of them
once, in the order of their keys. What deletions leave is told entry by entry: an entry stays
unless it belongs to an object that is left out, and a name belongs to an object only while it
leads there. Neither needs consistent contents. It is enough that what is recorded for the
identities at hand are records of stored objects, and of nothing else is anything asked.
-/

namespace Depot

namespace Entry

/-- The key of an entry in a region. -/
def keyIn (entry : Entry) : Region → Bytes
  | .name => entry.nameKey
  | .payload | .metadata => entry.key

@[simp] theorem keyIn_payload (entry : Entry) : entry.keyIn .payload = entry.identity.key := rfl

@[simp] theorem keyIn_name (entry : Entry) : entry.keyIn .name = entry.nameKey := rfl

@[simp] theorem keyIn_metadata (entry : Entry) : entry.keyIn .metadata = entry.identity.key := rfl

/-- The value of an entry in a region. -/
def valueIn (entry : Entry) : Region → Bytes
  | .payload => entry.payload
  | .name => entry.key
  | .metadata => entry.record

end Entry

/-- What is bound belongs to an object: under its identity, or under its name as long as the
name leads to it. -/
def Object.Owns (object : Object) (region : Region) (key value : Bytes) : Prop :=
  key = object.entry.keyIn region ∧ (region = .name → value = object.identity.key)

/-- Metadata that describes an object gives the object's key in the name region. -/
theorem Metadata.Describes.nameKey_eq {object : Object} {identity : Uuid} {name : String}
    {owner : Uuid} (describes : object.metadata.Describes identity name owner) :
    object.entry.nameKey = nameKey name owner.toText := by
  show nameKey object.name object.owner = _
  rw [Object.name, Object.owner, describes.hasName, describes.hasOwner]
  rfl

namespace Contents

/-- An object is held: its record gives its metadata, its content is there, and it is sealed
like every object that comes from a store. -/
structure Holds (contents : Contents) (object : Object) : Prop where
  record : ∃ record, contents.get? .metadata object.identity.key = some record ∧
    Metadata.decode record = .ok object.metadata
  payload : contents.get? .payload object.identity.key = some object.payload
  isSealed : object.isSealed = true

/-- A list has the objects that are held and wanted, each of them once, in the order of their
keys. -/
structure Lists (contents : Contents) (wanted : Object → Prop) (objects : List Object) :
    Prop where
  complete : ∀ object, object ∈ objects ↔ contents.Holds object ∧ wanted object
  ascending : Ascending (objects.map Object.identity)

/-- The contents `after` are those `before` without what belongs to objects. -/
def LeavesOut (before : Contents) (objects : List Object) (after : Contents) : Prop :=
  ∀ region key value, after.get? region key = some value ↔
    before.get? region key = some value ∧ ∀ object ∈ objects, ¬ object.Owns region key value

variable {contents before between after : Contents} {identity : Uuid} {object : Object}
  {identities : List Uuid} {objects more : List Object} {wanted other : Object → Prop}

/-! ## Listing -/

/-- An object is fetched for an identity if it has this identity and is held. -/
theorem RecordedAt.objectOf_eq_ok_iff (recordedAt : contents.RecordedAt identity) :
    contents.objectOf identity = .ok object ↔
      object.identity = identity ∧ contents.Holds object := by
  rw [Contents.objectOf_eq_ok_iff]
  constructor
  · rintro ⟨metadata, payload, found, held, restored⟩
    obtain ⟨_, _, describes, _⟩ := recordedAt.describes found
    rw [Object.restore_of_describes describes payload] at restored
    obtain rfl := Except.ok.inj restored
    exact ⟨rfl, metadataOf_eq_ok_iff.1 found, held, rfl⟩
  · rintro ⟨rfl, record, held, isSealed⟩
    have found := metadataOf_eq_ok_iff.2 record
    obtain ⟨_, _, describes, _⟩ := recordedAt.describes found
    refine ⟨object.metadata, object.payload, found, held, ?_⟩
    rw [Object.restore_of_describes describes, ← isSealed]

/-- Wanted objects may be told in other words. -/
theorem Lists.congr (lists : contents.Lists wanted objects)
    (same : ∀ object, contents.Holds object → (wanted object ↔ other object)) :
    contents.Lists other objects where
  complete object := (lists.complete object).trans (and_congr_right (same object))
  ascending := lists.ascending

/-- The objects that are fetched for identities are listed. -/
theorem lists_filterMap (recorded : ∀ identity ∈ identities, contents.RecordedAt identity)
    (ascending : Ascending identities) :
    contents.Lists (fun object => object.identity ∈ identities)
      (identities.filterMap fun identity => (contents.objectOf identity).toOption) where
  complete object := by
    rw [List.mem_filterMap]
    constructor
    · rintro ⟨identity, member, found⟩
      obtain ⟨rfl, holds⟩ :=
        (recorded identity member).objectOf_eq_ok_iff.1 (toOption_eq_some_iff.1 found)
      exact ⟨holds, member⟩
    · rintro ⟨holds, member⟩
      refine ⟨object.identity, member, toOption_eq_some_iff.2 ?_⟩
      exact (recorded object.identity member).objectOf_eq_ok_iff.2 ⟨rfl, holds⟩
  ascending := by
    rw [Ascending, List.pairwise_map, List.pairwise_filterMap]
    refine ascending.imp_of_mem fun earlier later below first found second foundSecond => ?_
    obtain ⟨rfl, _⟩ :=
      (recorded _ earlier).objectOf_eq_ok_iff.1 (toOption_eq_some_iff.1 found)
    obtain ⟨rfl, _⟩ :=
      (recorded _ later).objectOf_eq_ok_iff.1 (toOption_eq_some_iff.1 foundSecond)
    exact below

/-- If there is an object for every identity, the objects listed have these identities. -/
theorem map_identity_filterMap
    (held : ∀ identity ∈ identities,
      ∃ object, contents.objectOf identity = .ok object ∧ object.identity = identity) :
    (identities.filterMap fun identity => (contents.objectOf identity).toOption).map
        Object.identity = identities := by
  induction identities with
  | nil => rfl
  | cons identity rest inductionHypothesis =>
      obtain ⟨⟨object, found, own⟩, heldRest⟩ := List.forall_mem_cons.1 held
      have first : (contents.objectOf identity).toOption = some object :=
        toOption_eq_some_iff.2 found
      simp only [List.filterMap_cons, first, List.map_cons, own, inductionHypothesis heldRest]

/-! ## Leaving out -/

/-- Where nothing is left out, everything stays. -/
theorem leavesOut_nil (before : Contents) : before.LeavesOut [] before := by
  intro region key value
  simp

/-- Objects are left out after others. -/
theorem LeavesOut.append (first : before.LeavesOut objects between)
    (second : between.LeavesOut more after) : before.LeavesOut (objects ++ more) after := by
  intro region key value
  rw [second, first, and_assoc, List.forall_mem_append]

/-- What belongs to the identity of an object that its metadata describes is what the object
owns. -/
theorem belongs_iff_owns {name : String} {owner : Uuid}
    (describes : object.metadata.Describes object.identity name owner) {region : Region}
    {key value : Bytes} :
    Belongs object.identity object.metadata region key value ↔ object.Owns region key value := by
  unfold Object.Owns
  cases region with
  | payload => exact (and_iff_left fun wrong => absurd wrong (by simp)).symm
  | metadata => exact (and_iff_left fun wrong => absurd wrong (by simp)).symm
  | name =>
      rw [Entry.keyIn_name, describes.nameKey_eq, Belongs, describes.hasName, describes.hasOwner]
      simp [and_comm]

/-- Removing the object that metadata describes leaves it out. -/
theorem leavesOut_without {name : String} {owner : Uuid}
    (describes : object.metadata.Describes object.identity name owner) :
    before.LeavesOut [object] (before.without object.identity object.metadata) := by
  intro region key value
  rw [List.forall_mem_singleton, get?_without_iff, belongs_iff_owns describes]

/-! ## Leaving out one by one -/

/-- Of identities to be deleted, those that have a record are the identities of these objects. -/
structure Marks (contents : Contents) (identities : List Uuid) (objects : List Object) :
    Prop where
  distinct : identities.Nodup
  recorded : ∀ identity ∈ identities, contents.RecordedAt identity
  present : objects.map Object.identity
    = identities.filter fun identity => (contents.records.get? identity.key).isSome
  given : ∀ object ∈ objects, contents.metadataOf object.identity = .ok object.metadata

/-- An identity without a record is passed over. -/
theorem Marks.of_missing (marks : contents.Marks (identity :: identities) objects)
    (missing : contents.records.get? identity.key = none) : contents.Marks identities objects where
  distinct := (List.nodup_cons.1 marks.distinct).2
  recorded := (List.forall_mem_cons.1 marks.recorded).2
  present := by
    rw [marks.present]
    exact List.filter_cons_of_neg (by simp [missing])
  given := marks.given

/-- An identity with a record is that of the first object. -/
theorem Marks.exists_cons {record : Bytes} (marks : contents.Marks (identity :: identities) objects)
    (held : contents.records.get? identity.key = some record) :
    ∃ object others, object.identity = identity ∧ objects = object :: others := by
  have present := marks.present
  rw [List.filter_cons_of_pos (by simp [held])] at present
  obtain ⟨object, others, same, own, _⟩ := List.map_eq_cons_iff.1 present
  exact ⟨object, others, own, same⟩

/-- Once the first object is removed, the others still have their records: a removed object
takes no record along but its own. -/
theorem Marks.without {others : List Object}
    (marks : contents.Marks (object.identity :: identities) (object :: others)) :
    (contents.without object.identity object.metadata).Marks identities others := by
  obtain ⟨once, distinct⟩ := List.nodup_cons.1 marks.distinct
  obtain ⟨found, given⟩ := List.forall_mem_cons.1 marks.given
  obtain ⟨record, held, _⟩ := metadataOf_eq_ok_iff.1 found
  have present := marks.present
  rw [List.filter_cons_of_pos (by simp [held]), List.map_cons] at present
  have presentRest := (List.cons.inj present).2
  have kept : ∀ other ∈ identities,
      (contents.without object.identity object.metadata).records.get? other.key
        = contents.records.get? other.key := by
    intro other member
    have apart : other.key ≠ object.identity.key := fun same =>
      once (Uuid.key_injective same ▸ member)
    show ((contents.withoutName object.identity object.metadata).records.erase _).get? _ = _
    rw [records_withoutName, OrderedMap.get?_erase_of_ne _ apart]
  refine ⟨distinct, fun other member record found => ?_, ?_, fun later member => ?_⟩
  · rw [kept other member] at found
    exact marks.recorded other (List.mem_cons_of_mem _ member) record found
  · rw [presentRest]
    exact List.filter_congr fun other member => by rw [kept other member]
  · have among := List.mem_map_of_mem (f := Object.identity) member
    rw [presentRest] at among
    have metadata := given later member
    rwa [metadataOf, ← kept _ (List.mem_filter.1 among).1] at metadata

end Contents

namespace Bucket

variable {bucket : Bucket} {before : Contents} {identities : List Uuid} {objects : List Object}

/-- On a calm engine in memory, deletions one by one leave out exactly the objects that have a
record at the start, and count them. -/
theorem leads_deleteEach_inMemory (marks : before.Marks identities objects) :
    Leads (.reliable .unrestricted) (bucket.deleteEach identities).run before fun result after =>
      result = .ok objects.length ∧ before.LeavesOut objects after := by
  induction identities generalizing before objects with
  | nil =>
      obtain rfl := List.map_eq_nil_iff.1 marks.present
      exact Leads.give ⟨rfl, before.leavesOut_nil⟩
  | cons identity rest inductionHypothesis =>
      refine Leads.andThen (Leads.attempt ((leads_delete_inMemory identity).mono ?_))
      intro result between removed
      cases held : before.records.get? identity.key with
      | none =>
          rw [Contents.metadataOf_of_missing held] at removed
          obtain ⟨rfl, rfl⟩ := removed
          exact Leads.andThen (Leads.emit (inductionHypothesis (marks.of_missing held)))
      | some record =>
          obtain ⟨object, others, rfl, rfl⟩ := marks.exists_cons held
          have found := marks.given object List.mem_cons_self
          obtain ⟨_, _, describes, _⟩ :=
            (marks.recorded object.identity List.mem_cons_self).describes found
          rw [found] at removed
          obtain ⟨rfl, rfl⟩ := removed
          refine Leads.follow (inductionHypothesis marks.without) ?_ ?_
          · rintro error after ⟨wrong, _⟩
            exact absurd wrong (by simp)
          · rintro count after ⟨counted, leavesOut⟩
            obtain rfl := Except.ok.inj counted
            exact Leads.give ⟨rfl, (Contents.leavesOut_without describes).append leavesOut⟩

/-- So they are deleted, and their number is reported. -/
theorem leads_deleteReported_inMemory (marks : before.Marks identities objects)
    (connective : Connective) :
    Leads (.reliable .unrestricted) (do
        let count ← bucket.deleteEach identities
        bucket.report (.selectionDeleted count connective)
        return count : Session Nat).run before fun result after =>
      result = .ok objects.length ∧ before.LeavesOut objects after := by
  refine Leads.follow (leads_deleteEach_inMemory marks) ?_ ?_
  · rintro error after ⟨wrong, _⟩
    exact absurd wrong (by simp)
  · rintro count after ⟨counted, leavesOut⟩
    obtain rfl := Except.ok.inj counted
    exact Leads.andThen (Leads.emitIf (Leads.give ⟨rfl, leavesOut⟩))

end Bucket

end Depot
