import Depot.Proofs.Bucket.Creation
import Depot.Proofs.Consistency.Names
import Depot.Proofs.Consistency.Payloads
import Depot.Proofs.Consistency.Selecting

/-!
# What one owner sees of another

Keys of names are made of the name and the owner, and those of different owners never
coincide, whatever the names are. So what is written or removed for objects of other owners
leaves the names of an owner alone, and as long as it concerns other identities, it leaves the
records and the content of the owner's objects alone, too. What the owner finds by names and
by selections is then the same, also when others' objects are half stored or half removed.
-/

namespace Depot

/-- A selection is for the objects of an owner: all its parameters must match, and one of them
is the owner. -/
structure Selection.IsFor (selection : Selection) (owner : Uuid) : Prop where
  joined : selection.connective = .all
  carried : selection.parameters.get? Metadata.Key.owner.text = some owner.toText

/-- What is selected by a selection for an owner is the owner's. -/
theorem Selection.IsFor.owner_of_selects {selection : Selection} {owner : Uuid}
    {metadata : Metadata} (own : selection.IsFor owner)
    (selects : selection.selects metadata = true) :
    metadata.get? Metadata.Key.owner.text = some owner.toText := by
  have member := Metadata.mem_constraints_iff.2 ⟨own.carried, owner.toText_ne_empty⟩
  have satisfied := ((selects_iff_of_all own.joined).1 selects).2 _ member
  exact of_decide_eq_true satisfied

namespace Contents

variable {before between after : Contents} {tenant : Uuid} {identity : Uuid} {entry : Entry}
  {entries : List Entry} {count : Nat} {mode : WriteMode} {targets : List Uuid}

/-- No object of the owner is stored under the identity. -/
def Foreign (contents : Contents) (tenant identity : Uuid) : Prop :=
  ∀ name, ¬ contents.Stores identity name tenant

/-- For an owner, contents are as they were before: the owner's names lead where they led, the
owner's objects are stored as they were, and there are no new ones. -/
structure SameFor (tenant : Uuid) (before after : Contents) : Prop where
  names : ∀ name : String, after.names.get? (nameKey name tenant.toText)
    = before.names.get? (nameKey name tenant.toText)
  records : ∀ identity name, before.Stores identity name tenant →
    after.records.get? identity.key = before.records.get? identity.key
  payloads : ∀ identity name, before.Stores identity name tenant →
    after.payloads.get? identity.key = before.payloads.get? identity.key
  known : ∀ identity name, after.Stores identity name tenant → before.Stores identity name tenant

theorem Foreign.within (foreign : before.Foreign tenant identity)
    (within : after.RecordsWithin before) : after.Foreign tenant identity :=
  fun name stored => foreign name (stored.within within)

/-- An object of the owner has another identity than what is foreign. -/
theorem Foreign.key_ne {other : Uuid} {name : String} (foreign : before.Foreign tenant identity)
    (stored : before.Stores other name tenant) : other.key ≠ identity.key := by
  intro same
  obtain rfl := Uuid.key_injective same
  exact foreign name stored

namespace SameFor

theorem refl (tenant : Uuid) (contents : Contents) : SameFor tenant contents contents :=
  ⟨fun _ => rfl, fun _ _ _ => rfl, fun _ _ _ => rfl, fun _ _ stored => stored⟩

/-- The owner's objects are still stored. -/
theorem stores {name : String} (same : SameFor tenant before after)
    (stored : before.Stores identity name tenant) : after.Stores identity name tenant := by
  obtain ⟨record, found, described⟩ := id stored
  exact ⟨record, (same.records identity name stored).trans found, described⟩

theorem trans (first : SameFor tenant before between) (second : SameFor tenant between after) :
    SameFor tenant before after where
  names name := (second.names name).trans (first.names name)
  records identity name stored :=
    (second.records identity name (first.stores stored)).trans (first.records identity name stored)
  payloads identity name stored :=
    (second.payloads identity name (first.stores stored)).trans
      (first.payloads identity name stored)
  known identity name stored := first.known identity name (second.known identity name stored)

theorem foreign (same : SameFor tenant before after) (foreign : before.Foreign tenant identity) :
    after.Foreign tenant identity := fun name stored => foreign name (same.known _ _ stored)

/-! ## Objects that are removed -/

/-- Removing the name of an object of another owner changes nothing for an owner. -/
theorem withoutName {metadata : Metadata} {name : String} {owner : Uuid}
    (describes : metadata.Describes identity name owner) (apart : owner ≠ tenant) :
    SameFor tenant before (before.withoutName identity metadata) := by
  have within : (before.withoutName identity metadata).RecordsWithin before :=
    fun key record found => by rwa [records_withoutName] at found
  refine ⟨fun sought => ?_, fun _ _ _ => ?_, fun _ _ _ => ?_, fun _ _ stored => ?_⟩
  · refine Option.ext fun holder => (get?_withoutName_iff describes).trans ?_
    exact and_iff_left fun own => apart (nameKey_injective own.1).2
  · rw [records_withoutName]
  · rw [payloads_withoutName]
  · exact stored.within within

theorem withoutPayload (foreign : before.Foreign tenant identity) :
    SameFor tenant before (before.withoutPayload identity) :=
  ⟨fun _ => rfl, fun _ _ _ => rfl,
    fun _ _ stored => OrderedMap.get?_erase_of_ne _ (foreign.key_ne stored),
    fun _ _ stored => stored⟩

theorem withoutRecord (foreign : before.Foreign tenant identity) :
    SameFor tenant before (before.withoutRecord identity) :=
  ⟨fun _ => rfl, fun _ _ stored => OrderedMap.get?_erase_of_ne _ (foreign.key_ne stored),
    fun _ _ _ => rfl, fun _ _ stored => (stores_withoutRecord_iff.1 stored).2⟩

/-- A deletion of what is foreign changes nothing for an owner, also if it is cut short. -/
theorem removal (recorded : before.Recorded) (foreign : before.Foreign tenant identity)
    (removal : before.Removal mode identity after) : SameFor tenant before after := by
  have unnamed : ∀ {metadata : Metadata}, before.metadataOf identity = .ok metadata →
      SameFor tenant before (before.withoutName identity metadata) := by
    intro metadata found
    obtain ⟨name, owner, describes, stored⟩ := recorded.describes found
    apply withoutName describes
    rintro rfl
    exact foreign name stored
  have emptied : ∀ {metadata : Metadata}, before.metadataOf identity = .ok metadata →
      SameFor tenant before ((before.withoutName identity metadata).withoutPayload identity) :=
    fun found => (unnamed found).trans (withoutPayload ((unnamed found).foreign foreign))
  cases removal with
  | halfway interrupted =>
      cases interrupted with
      | unnamed _ found => exact unnamed found
      | emptied _ found => exact emptied found
  | whole found => exact (emptied found).trans (withoutRecord ((emptied found).foreign foreign))

/-- Deletions of what is foreign change nothing for an owner. -/
theorem pruned (recorded : before.Recorded)
    (foreign : ∀ identity ∈ targets, before.Foreign tenant identity)
    (pruned : before.Pruned mode targets after) : SameFor tenant before after := by
  obtain ⟨between, cleared, left⟩ := pruned
  have whole : between.Recorded ∧ SameFor tenant before between := by
    clear left
    induction cleared with
    | refl => exact ⟨recorded, refl tenant before⟩
    | @tail earlier later _ clears inductionHypothesis =>
        obtain ⟨recorded, same⟩ := inductionHypothesis
        obtain ⟨identity, member, metadata, found, rfl⟩ := clears
        have step : earlier.Removal mode identity (earlier.without identity metadata) :=
          .whole found
        exact ⟨recorded.within step.recordsWithin,
          same.trans (removal recorded (same.foreign (foreign identity member)) step)⟩
  obtain ⟨recordedBetween, same⟩ := whole
  rcases left with rfl | ⟨identity, member, interrupted⟩
  · exact same
  · exact same.trans
      (removal recordedBetween (same.foreign (foreign identity member)) (.halfway interrupted))

end SameFor

/-! ## Objects that are stored -/

/-- An entry is another owner's, and no object of the owner is stored under its identity. -/
structure Alien (contents : Contents) (tenant : Uuid) (entry : Entry) : Prop where
  owned : ∃ owner : Uuid, owner ≠ tenant ∧ entry.owner = owner.toText ∧
    RecordOf entry.record entry.identity entry.name owner
  foreign : contents.Foreign tenant entry.identity

theorem Alien.of_same (alien : before.Alien tenant entry) (same : SameFor tenant before after) :
    after.Alien tenant entry :=
  ⟨alien.owned, same.foreign alien.foreign⟩

namespace SameFor

/-- Writing content of others changes nothing for an owner. -/
theorem withPayloads (alien : ∀ entry ∈ entries, before.Alien tenant entry) :
    SameFor tenant before (before.withPayloads entries) := by
  refine ⟨fun _ => ?_, fun _ _ _ => ?_, fun other name stored => ?_, fun _ _ stored => ?_⟩
  · rw [names_withPayloads]
  · rw [records_withPayloads]
  · refine get?_payloads_withPayloads_of_ne fun entry member same => ?_
    exact (alien entry member).foreign.key_ne stored same.symm
  · exact stored.within (recordsWithin_withPayloads before entries)

theorem withName (alien : before.Alien tenant entry) :
    SameFor tenant before (before.withName entry) := by
  obtain ⟨owner, apart, canonical, _⟩ := alien.owned
  refine ⟨fun name => ?_, fun _ _ _ => rfl, fun _ _ _ => rfl, fun _ _ stored => stored⟩
  refine OrderedMap.get?_insert_of_ne _ _ fun same => apart ?_
  rw [Entry.nameKey, canonical] at same
  exact (nameKey_injective same).2.symm

theorem withRecord (alien : before.Alien tenant entry) :
    SameFor tenant before (before.withRecord entry) := by
  obtain ⟨owner, apart, _, described⟩ := alien.owned
  refine ⟨fun _ => rfl, fun other name stored => ?_, fun _ _ _ => rfl, fun _ _ stored => ?_⟩
  · exact OrderedMap.get?_insert_of_ne _ _ (alien.foreign.key_ne stored)
  · rcases (stores_withRecord_iff described).1 stored with ⟨_, _, own⟩ | ⟨_, earlier⟩
    · exact absurd own.symm apart
    · exact earlier

/-- Indexing others' entries changes nothing for an owner. -/
theorem indexed (alien : ∀ entry ∈ entries, before.Alien tenant entry)
    (indexed : before.Indexed entries count after) : SameFor tenant before after := by
  induction indexed with
  | stopped before => exact refl tenant before
  | named => exact withName (List.forall_mem_cons.1 alien).1
  | @next before after entry rest count _ _ inductionHypothesis =>
      obtain ⟨here, later⟩ := List.forall_mem_cons.1 alien
      have named : SameFor tenant before (before.withName entry) := withName here
      have written : SameFor tenant before ((before.withName entry).withRecord entry) :=
        named.trans (withRecord (here.of_same named))
      exact written.trans (inductionHypothesis fun other member =>
        (later other member).of_same written)

/-- Storing others' objects changes nothing for an owner. -/
theorem created {bucket : Bucket} {objects : List Object}
    (alien : ∀ object ∈ objects, object.Storable bucket.settings.requireContentType →
      before.Alien tenant object.entry)
    (created : before.Created bucket objects count after) : SameFor tenant before after := by
  rcases created.indexed with ⟨_, rfl⟩ | ⟨storable, _, indexed⟩
  · exact refl tenant _
  · have others : ∀ entry ∈ objects.map Object.entry, before.Alien tenant entry :=
      List.forall_mem_map.2 fun object member => alien object member (storable object member)
    have paid := withPayloads others
    exact paid.trans (SameFor.indexed (fun entry member => (others entry member).of_same paid)
      indexed)

end SameFor

/-! ## Names of others -/

/-- No name of another owner leads to an object of the owner. -/
def Secluded (contents : Contents) (tenant : Uuid) : Prop :=
  ∀ (name : String) (owner identity : Uuid) (holder : Bytes), owner ≠ tenant →
    contents.names.get? (nameKey name owner.toText) = some holder →
      Uuid.ofKey holder = .ok identity → contents.Foreign tenant identity

/-- In consistent contents, names lead to objects of their owner. -/
theorem Consistent.secluded (consistent : before.Consistent) (tenant : Uuid) :
    before.Secluded tenant := by
  intro name owner identity holder apart found leads other stored
  obtain ⟨own, _, _, ownStored, same, rfl⟩ := (consistent.named _ _).1 found
  obtain ⟨rfl, rfl⟩ := nameKey_injective same
  rw [Uuid.ofKey_key] at leads
  obtain rfl := Except.ok.inj leads
  exact apart (ownStored.unique stored).2

theorem Secluded.within (secluded : before.Secluded tenant) (names : after.NamesWithin before)
    (records : after.RecordsWithin before) : after.Secluded tenant :=
  fun name owner identity holder apart found leads =>
    (secluded name owner identity holder apart (names _ _ found) leads).within records

/-- Deletions keep an owner's objects secluded. -/
theorem Secluded.removals (secluded : before.Secluded tenant)
    (removals : before.Removals mode after) : after.Secluded tenant := by
  induction removals with
  | refl => exact secluded
  | tail _ removal inductionHypothesis =>
      obtain ⟨_, removal⟩ := removal
      exact inductionHypothesis.within removal.namesWithin removal.recordsWithin

/-- Indexing others' entries keeps an owner's objects secluded. -/
theorem Secluded.indexed (secluded : before.Secluded tenant)
    (alien : ∀ entry ∈ entries, before.Alien tenant entry)
    (indexed : before.Indexed entries count after) : after.Secluded tenant := by
  have named : ∀ {contents : Contents} {entry : Entry}, contents.Secluded tenant →
      contents.Alien tenant entry → (contents.withName entry).Secluded tenant := by
    intro contents entry secluded alien name owner identity holder apart found leads
    simp only [Contents.withName, OrderedMap.get?_insert_eq] at found
    split at found
    · rw [← Option.some.inj found, Entry.key, Uuid.ofKey_key] at leads
      rw [← Except.ok.inj leads]
      exact alien.foreign
    · exact secluded name owner identity holder apart found leads
  induction indexed with
  | stopped => exact secluded
  | named => exact named secluded (List.forall_mem_cons.1 alien).1
  | @next before after entry rest count _ _ inductionHypothesis =>
      obtain ⟨here, later⟩ := List.forall_mem_cons.1 alien
      have same : SameFor tenant before (before.withName entry) := .withName here
      have recorded : SameFor tenant (before.withName entry)
          ((before.withName entry).withRecord entry) := .withRecord (here.of_same same)
      refine inductionHypothesis (fun name owner identity holder apart found leads => ?_)
        fun other member => (later other member).of_same (same.trans recorded)
      exact recorded.foreign (named secluded here name owner identity holder apart found leads)

/-- Storing others' objects keeps an owner's objects secluded. -/
theorem Secluded.created {bucket : Bucket} {objects : List Object}
    (secluded : before.Secluded tenant)
    (alien : ∀ object ∈ objects, object.Storable bucket.settings.requireContentType →
      before.Alien tenant object.entry)
    (created : before.Created bucket objects count after) : after.Secluded tenant := by
  rcases created.indexed with ⟨_, rfl⟩ | ⟨storable, _, indexed⟩
  · exact secluded
  · have others : ∀ entry ∈ objects.map Object.entry, before.Alien tenant entry :=
      List.forall_mem_map.2 fun object member => alien object member (storable object member)
    have paid : (before.withPayloads (objects.map Object.entry)).Secluded tenant := by
      refine secluded.within (fun key holder found => ?_) (recordsWithin_withPayloads before _)
      rwa [names_withPayloads] at found
    exact paid.indexed
      (fun entry member => (others entry member).of_same (SameFor.withPayloads others)) indexed

/-! ## What an owner finds -/

/-- What a selection for an owner matches is stored for the owner. -/
theorem Recorded.stores_of_mem_matched {selection : Selection} (recorded : before.Recorded)
    (own : selection.IsFor tenant) (member : identity ∈ before.matched selection) :
    ∃ name, before.Stores identity name tenant := by
  obtain ⟨metadata, read, selected⟩ := recorded.selects_of_mem_matched member
  obtain ⟨name, owner, describes, stored⟩ := recorded.describes read
  have carried := own.owner_of_selects selected
  obtain rfl := Uuid.toText_injective (Option.some.inj (describes.hasOwner.symm.trans carried))
  exact ⟨name, stored⟩

namespace SameFor

/-- The owner's names are resolved as before. -/
theorem resolved_eq {owner : String} (same : SameFor tenant before after)
    (spelled : Uuid.parse? owner = some tenant) (name : String) :
    after.resolved name owner = before.resolved name owner := by
  simp only [resolved, identityOf, Uuid.normalise, spelled, Except.mapError, bind, Except.bind,
    same.names name]

/-- The owner's objects are as before. -/
theorem objectOf_eq {name : String} (same : SameFor tenant before after)
    (stored : before.Stores identity name tenant) :
    after.objectOf identity = before.objectOf identity := by
  simp only [objectOf, metadataOf, payloadOf, same.records identity name stored,
    same.payloads identity name stored]

/-- What the owner finds by a name is as in the consistent contents before. -/
theorem objectNamed_eq {owner : String} (same : SameFor tenant before after)
    (consistent : before.Consistent) (spelled : Uuid.parse? owner = some tenant) (name : String) :
    after.objectNamed name owner = before.objectNamed name owner := by
  rw [objectNamed, objectNamed, same.resolved_eq spelled]
  cases leads : before.resolved name owner with
  | error error => rfl
  | ok identity =>
      obtain ⟨_, key, parsed, _, found, read⟩ := resolved_eq_ok_iff.1 leads
      obtain rfl := Option.some.inj (parsed.symm.trans spelled)
      obtain ⟨holder, _, _, stored, claim, rfl⟩ := (consistent.named _ _).1 found
      obtain ⟨rfl, rfl⟩ := nameKey_injective claim
      rw [Uuid.ofKey_key] at read
      obtain rfl := Except.ok.inj read
      exact same.objectOf_eq stored

variable {selection : Selection}

/-- What a selection for the owner selects is stored for the owner. -/
theorem stores_of_selectsRecord {contents : Contents} {key record : Bytes}
    (recorded : contents.Recorded) (own : selection.IsFor tenant)
    (found : contents.records.get? key = some record)
    (selected : selectsRecord selection record = true) :
    ∃ identity name, identity.key = key ∧ contents.Stores identity name tenant := by
  obtain ⟨identity, name, owner, rfl, described⟩ := recorded key record found
  obtain ⟨metadata, read, describes⟩ := id described
  simp only [selectsRecord, read] at selected
  have carried := own.owner_of_selects selected
  obtain rfl := Uuid.toText_injective (Option.some.inj (describes.hasOwner.symm.trans carried))
  exact ⟨identity, name, rfl, record, found, described⟩

/-- A selection for the owner selects the same as before. -/
theorem selected_eq (same : SameFor tenant before after) (recorded : before.Recorded)
    (recordedAfter : after.Recorded) (own : selection.IsFor tenant) :
    after.selected selection = before.selected selection := by
  have readable : ∀ {contents : Contents}, contents.Recorded →
      ∀ entry ∈ contents.records.entries, ∃ metadata, Metadata.decode entry.2 = .ok metadata := by
    rintro contents recorded ⟨key, record⟩ member
    obtain ⟨_, _, _, _, metadata, read, _⟩ :=
      recorded key record ((contents.records.mem_entries_iff key record).1 member)
    exact ⟨metadata, read⟩
  have filtered : (after.records.filter fun _ record => selectsRecord selection record)
      = before.records.filter fun _ record => selectsRecord selection record := by
    apply OrderedMap.ext_get?
    intro key
    apply Option.ext
    intro record
    rw [OrderedMap.get?_filter, OrderedMap.get?_filter, Option.filter_eq_some_iff,
      Option.filter_eq_some_iff]
    constructor
    · rintro ⟨found, selected⟩
      obtain ⟨identity, name, rfl, stored⟩ :=
        stores_of_selectsRecord recordedAfter own found selected
      exact ⟨(same.records identity name (same.known _ _ stored)).symm.trans found, selected⟩
    · rintro ⟨found, selected⟩
      obtain ⟨identity, name, rfl, stored⟩ := stores_of_selectsRecord recorded own found selected
      exact ⟨(same.records identity name stored).trans found, selected⟩
  have found : Bucket.matching selection after.records.entries
      = Bucket.matching selection before.records.entries := by
    rw [← matching_filter (readable recordedAfter), ← matching_filter (readable recorded)]
    exact congrArg (fun map => Bucket.matching selection (OrderedMap.entries map)) filtered
  rw [selected, selected, found]

/-- Objects that are as before are fetched as before. -/
theorem objectsOf_congr {identities : List Uuid}
    (same : ∀ identity ∈ identities, after.objectOf identity = before.objectOf identity) :
    after.objectsOf identities = before.objectsOf identities := by
  induction identities with
  | nil => rfl
  | cons identity rest inductionHypothesis =>
      obtain ⟨here, later⟩ := List.forall_mem_cons.1 same
      rw [objectsOf, objectsOf, here, inductionHypothesis later]

/-- What the owner finds by a selection is as before. -/
theorem objectsSelected_eq (same : SameFor tenant before after) (recorded : before.Recorded)
    (recordedAfter : after.Recorded) (own : selection.IsFor tenant) :
    after.objectsSelected selection = before.objectsSelected selection := by
  rw [objectsSelected, objectsSelected, same.selected_eq recorded recordedAfter own]
  cases selects : before.selected selection with
  | error error => rfl
  | ok identities =>
      refine objectsOf_congr fun identity member => ?_
      have matched : identity ∈ before.matched selection := by
        rw [Contents.matched, selects]
        exact member
      obtain ⟨name, stored⟩ := recorded.stores_of_mem_matched own matched
      exact same.objectOf_eq stored

end SameFor

end Contents

end Depot
