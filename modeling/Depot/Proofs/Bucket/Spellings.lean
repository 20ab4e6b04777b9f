import Depot.Proofs.Bucket.Conflicts
import Depot.Proofs.Bucket.Identities
import Depot.Proofs.Consistency.Listing
import Depot.Proofs.Object.Operations
import Depot.Proofs.Runs.Keeping

/-!
# Spellings at every entrance

An identifier comes in four spellings and in letters of either case, and it is brought into
canonical form in four places: where an object is created, where its owner is set, where a
parameter is added to a selection, and where a name is looked up. Keys and records are compared as
they are, so that the four must agree. They do: what was created under one spelling of its owner is
fetched, removed, kept unique and selected under every other.
-/

namespace Depot

/-! ## Owners that are given -/

namespace Object

/-- The owner of an object was given as a text, when the object was created or later, and nothing
else was written to it since. Texts and bags in memory have sizes that fit a machine word. -/
inductive OwnedAs (text : String) : Object → Prop where
  | create {source : Uuid.Source} {now : Instant} {name : String} {object : Object}
      (created : (Object.create source now name text).1 = .ok object)
      (fits : object.metadata.FitsWords) : OwnedAs text object
  | setOwner {object after : Object} (made : object.Made)
      (done : object.setValue Metadata.Key.owner.text text = .ok after)
      (fits : after.metadata.FitsWords) : OwnedAs text after
  | perform {object after : Object} {operation : Operation} (prior : OwnedAs text object)
      (elsewhere : ¬ operation.Writes Metadata.Key.owner.text)
      (done : operation.perform object = .ok after)
      (fits : after.metadata.FitsWords) : OwnedAs text after

variable {object : Object} {owner : Uuid} {text : String}

theorem OwnedAs.made (owned : object.OwnedAs text) : object.Made := by
  induction owned with
  | create created fits =>
      obtain ⟨identity, owner, _, rfl⟩ := create_eq_ok created
      exact .make fits
  | setOwner made done fits => exact .change made (.setValue done) fits
  | perform _ _ done fits made => exact .change made (change_of_perform done) fits

/-- The metadata has the canonical form of an owner that was given in any spelling. -/
theorem OwnedAs.hasOwner (owned : object.OwnedAs text) (spells : owner.Spells text) :
    object.metadata.get? Metadata.Key.owner.text = some owner.toText := by
  induction owned with
  | create created _ =>
      obtain ⟨identity, ownerRead, read, rfl⟩ := create_eq_ok created
      obtain rfl := Option.some.inj (spells.parse?.symm.trans read)
      simp [make, Metadata.get?_assign, Metadata.Key.text]
  | setOwner _ done _ =>
      have kept : keptValue Metadata.Key.owner.text text = owner.toText :=
        (if_pos rfl).trans spells.canonicalise_eq
      rw [(setValue_eq_ok done).2, Metadata.get?_set, kept]
      exact if_pos ⟨rfl, by decide⟩
  | perform _ elsewhere done _ same => exact (get?_of_perform elsewhere done).trans same

theorem OwnedAs.owner_eq (owned : object.OwnedAs text) (spells : owner.Spells text) :
    object.owner = owner.toText := by
  rw [Object.owner, owned.hasOwner spells]
  rfl

/-- An unsealed object of a name of any admitted length may be stored if its owner was given as a
spelling, and its kind of content where one is required. -/
theorem OwnedAs.storable {requireContentType : Bool} (owned : object.OwnedAs text)
    (spells : owner.Spells text) (unsealed : object.isSealed = false)
    (nonempty : 1 ≤ object.name.utf8ByteSize) (short : object.name.utf8ByteSize ≤ 255)
    (typed : requireContentType = true → object.contentType?.getD "" ≠ "") :
    object.Storable requireContentType := by
  refine ⟨unsealed, validate_eq_ok_iff.2 ⟨?_, short, ?_, ?_, ?_, typed⟩⟩
  · intro nameless
    rw [nameless] at nonempty
    exact absurd nonempty (by decide)
  · rw [owned.owner_eq spells]
    exact owner.toText_ne_empty
  · rw [owned.owner_eq spells]
    exact owner.isSpelling_toText
  · rw [(owned.made.orderly unsealed).identity, Option.bind_some, Uuid.parse?_toText]

end Object

/-! ## Selections that carry a spelling -/

namespace Selection

/-- A selection carries a text under a key: it was added as a parameter, and all parameters that
were added later have other keys. -/
inductive Carries (key text : String) : Selection → Prop where
  /-- The parameter is added, as `owner` and `id` do for their keys. -/
  | added (selection : Selection) : Carries key text (selection.parameter key text)
  | further {selection : Selection} (prior : Carries key text selection) {other : String}
      (apart : other ≠ key) (value : String) : Carries key text (selection.parameter other value)
  | used {selection : Selection} (prior : Carries key text selection) (connective : Connective)
      (purpose : Purpose) : Carries key text { selection with connective, purpose }

/-- Under other keys than this one, a selection asks for nothing but what metadata has. -/
def Suits (selection : Selection) (key : String) (metadata : Metadata) : Prop :=
  ∀ entry ∈ selection.parameters.constraints, entry.1 ≠ key → metadata.satisfies entry = true

/-- A selection asks for a name only together with an owner. -/
def NamesWithOwner (selection : Selection) : Prop :=
  (selection.constraint? .name).isSome = true → (selection.constraint? .owner).isSome = true

instance (selection : Selection) (key : String) (metadata : Metadata) :
    Decidable (selection.Suits key metadata) :=
  inferInstanceAs (Decidable (∀ entry ∈ selection.parameters.constraints,
    entry.1 ≠ key → metadata.satisfies entry = true))

instance (selection : Selection) : Decidable selection.NamesWithOwner :=
  inferInstanceAs (Decidable ((selection.constraint? .name).isSome = true →
    (selection.constraint? .owner).isSome = true))

variable {selection : Selection} {key text name : String} {identity owner uuid : Uuid}
  {metadata : Metadata}

/-- Under the keys of owner and identity, a selection has the canonical form of a spelling that it
carries. -/
theorem Carries.get?_parameters (carries : selection.Carries key text)
    (canonical : key = Metadata.Key.owner.text ∨ key = Metadata.Key.id.text)
    (spells : uuid.Spells text) : selection.parameters.get? key = some uuid.toText := by
  induction carries with
  | added selection =>
      rw [parameter, if_pos canonical, spells.canonicalise_eq]
      exact (Metadata.get?_assign _ _ _ _).trans (if_pos rfl)
  | further _ apart value held =>
      exact (Metadata.get?_assign _ _ _ _).trans ((if_neg apart.symm).trans held)
  | used _ _ _ held => exact held

/-- So metadata with this identifier satisfies the selection if it suits it otherwise. -/
theorem Carries.satisfied (carries : selection.Carries key text)
    (canonical : key = Metadata.Key.owner.text ∨ key = Metadata.Key.id.text)
    (spells : uuid.Spells text) (has : metadata.get? key = some uuid.toText)
    (suits : selection.Suits key metadata) :
    selection.parameters.constraints ≠ [] ∧
      ∀ entry ∈ selection.parameters.constraints, metadata.satisfies entry = true := by
  have held := carries.get?_parameters canonical spells
  have member := Metadata.mem_constraints_iff.2 ⟨held, uuid.toText_ne_empty⟩
  refine ⟨List.ne_nil_of_mem member, ?_⟩
  rintro ⟨other, value⟩ among
  by_cases own : other = key
  · obtain rfl := own
    obtain rfl := Option.some.inj (held.symm.trans (Metadata.mem_constraints_iff.1 among).1)
    exact decide_eq_true has
  · exact suits _ among own

/-- A constraint is one of the constraints. -/
theorem mem_constraints_of_constraint? {field : Metadata.Key} {value : String}
    (asked : selection.constraint? field = some value) :
    (field.text, value) ∈ selection.parameters.constraints := by
  obtain ⟨held, filled⟩ := Option.filter_eq_some_iff.1 asked
  exact Metadata.mem_constraints_iff.2 ⟨held, of_decide_eq_true filled⟩

/-- A constraint that metadata with an identifier satisfies is a spelling. -/
theorem requireSpelling_of_satisfied {field : Metadata.Key}
    (has : metadata.get? field.text = some uuid.toText)
    (satisfied : ∀ entry ∈ selection.parameters.constraints, metadata.satisfies entry = true) :
    requireSpelling field.text (selection.constraint? field) = .ok () := by
  cases asked : selection.constraint? field with
  | none => rfl
  | some value =>
      have same := of_decide_eq_true (satisfied _ (mem_constraints_of_constraint? asked))
      obtain rfl := Option.some.inj (has.symm.trans same)
      rw [requireSpelling, if_pos uuid.isSpelling_toText]

/-- A selection that the metadata of an object satisfies is valid. -/
theorem validate_of_satisfied (describes : metadata.Describes identity name owner)
    (asks : selection.parameters.constraints ≠ [])
    (satisfied : ∀ entry ∈ selection.parameters.constraints, metadata.satisfies entry = true)
    (named : selection.NamesWithOwner) : selection.validate = .ok () := by
  have filled : ¬ selection.parameters.toList.all (·.2 = "") = true := by
    obtain ⟨entry, among⟩ := List.exists_mem_of_ne_nil _ asks
    obtain ⟨held, nonempty⟩ := List.mem_filter.1 among
    intro empty
    exact of_decide_eq_true nonempty (of_decide_eq_true (List.all_eq_true.1 empty _ held))
  have ownerless : ¬ ((selection.constraint? .name).isSome
      && (selection.constraint? .owner).isNone) = true := by
    intro wrong
    obtain ⟨hasName, noOwner⟩ := Bool.and_eq_true_iff.1 wrong
    rw [Option.isNone_iff_eq_none] at noOwner
    exact absurd (named hasName) (by simp [noOwner])
  rw [validate, if_neg filled, if_neg ownerless,
    requireSpelling_of_satisfied describes.hasOwner satisfied,
    requireSpelling_of_satisfied describes.hasIdentity satisfied]
  rfl

end Selection

/-! ## Objects that are received -/

namespace Contents

variable {contents : Contents} {entry : Entry} {entries : List Entry} {object : Object}
  {objects : List Object}

theorem Recorded.withEntries (recorded : contents.Recorded)
    (sound : ∀ entry ∈ entries, entry.Sound) : (contents.withEntries entries).Recorded := by
  induction entries generalizing contents with
  | nil => exact recorded
  | cons entry rest inductionHypothesis =>
      obtain ⟨soundHere, soundRest⟩ := List.forall_mem_cons.1 sound
      have recordedHere : (contents.withEntry entry).Recorded := recorded.withRecord soundHere
      exact inductionHypothesis recordedHere soundRest

/-- The names of entries that are admitted lead to their identities. -/
theorem Admits.get?_nameKey (admits : contents.Admits entries) (member : entry ∈ entries) :
    (contents.withEntries entries).names.get? entry.nameKey = some entry.key := by
  induction entries generalizing contents with
  | nil => exact absurd member List.not_mem_nil
  | cons first rest inductionHypothesis =>
      obtain ⟨_, admitsRest⟩ := admits.withEntry
      rcases List.mem_cons.1 member with rfl | later
      · exact admitsRest.get?_names (OrderedMap.get?_insert_self _ _ _)
      · exact inductionHypothesis admitsRest later

/-- Of objects that are admitted, the entry of the last one of an identity is there. -/
theorem Admits.has_last (admits : contents.Admits (objects.map Object.entry))
    (last : Object.last? object.identity objects = some object) :
    (contents.withEntries (objects.map Object.entry)).Has object.entry := by
  have member : object ∈ objects := List.mem_reverse.1 (List.mem_of_find?_eq_some last)
  refine ⟨?_, ?_, admits.get?_nameKey (List.mem_map_of_mem member)⟩
  · refine (contents.get?_payloads_withEntries objects object.identity).trans ?_
    rw [last]
    rfl
  · refine (contents.get?_records_withEntries objects object.identity).trans ?_
    rw [last]
    rfl

end Contents

namespace Bucket

/-- A bucket receives an object: it is created, alone or among several, of which it is the last of
its identity. -/
inductive Receives (bucket : Bucket) (object : Object) (store : Store) : Store → Prop where
  | alone {stored : Object} {after : Store}
      (done : (bucket.create object).run.run store = (.ok stored, after)) :
      Receives bucket object store after
  | among {objects back : List Object} {identities : List Uuid} {after : Store}
      (made : ∀ other ∈ objects, other.Made)
      (last : Object.last? object.identity objects = some object)
      (done : (bucket.createBatch objects).run store = (⟨.ok identities, back⟩, after)) :
      Receives bucket object store after

variable {bucket : Bucket} {store after : Store} {object : Object} {owner : Uuid}
  {selection : Selection} {name first second : String}

/-- What is received is there, and every record is that of a stored object. -/
theorem Receives.has (received : bucket.Receives object store after) (calm : store.hazard = .none)
    (recorded : store.contents.Recorded) (made : object.Made) :
    (Circumstances.reliable store.keyRule).Hold after ∧
      object.Storable bucket.settings.requireContentType ∧ after.contents.Recorded ∧
      after.contents.Has object.entry := by
  have nobodyElse := (Circumstances.hold_of_calm calm).alone
  cases received with
  | alone done =>
      have hold := bucket.hold_of_create calm object
      obtain ⟨storable, _, left⟩ := create_eq_ok nobodyElse (congrArg Prod.fst done)
      rw [done] at hold left
      refine ⟨hold, storable, ?_, ?_⟩
      · rw [left]
        exact recorded.withRecord (Entry.sound made storable)
      · rw [left]
        exact store.contents.has_withEntry object.entry
  | @among objects back identities after allMade last done =>
      have hold := bucket.hold_of_createBatch calm objects
      obtain ⟨storable, admits, left⟩ :=
        createBatch_eq_ok nobodyElse (congrArg (fun ran => ran.1.result) done)
      rw [done] at hold left
      have member : object ∈ objects := List.mem_reverse.1 (List.mem_of_find?_eq_some last)
      refine ⟨hold, storable object member, ?_, ?_⟩
      · rw [left]
        exact recorded.withEntries (List.forall_mem_map.2 fun other among =>
          Entry.sound (allMade other among) (storable other among))
      · rw [left]
        exact admits.has_last last

/-- Where no call is refused and the engine takes the keys of objects, an object is stored as is
decided before. -/
theorem create_of_calm (calm : store.hazard = .none) (takes : store.keyRule.TakesStorable)
    (bucket : Bucket) (object : Object) :
    match bucket.admission store.contents [object] with
    | .error error => ((bucket.create object).run.run store).1 = .error error ∧
        ((bucket.create object).run.run store).2.contents = store.contents
    | .ok _ => ((bucket.create object).run.run store).1 = .ok object.sealed ∧
        ((bucket.create object).run.run store).2.contents
          = store.contents.withEntry object.entry :=
  (Abides.outcome_of_run (abides_create_of_admits fun storable => storable.admits takes)
    (calm ▸ Hazard.isQuiet_none) (leads_create_inMemory bucket object)).1

theorem create_of_free (calm : store.hazard = .none) (takes : store.keyRule.TakesStorable)
    (storable : object.Storable bucket.settings.requireContentType)
    (free : store.contents.names.get? object.entry.nameKey = none) :
    ((bucket.create object).run.run store).1 = .ok object.sealed := by
  have may : bucket.MayStore store.contents [object] :=
    mayStore_cons_iff.2 ⟨storable, free, ⟨by simp, ⟨by simp, .nil⟩⟩⟩
  have decided := create_of_calm calm takes bucket object
  rw [admission_eq_ok_iff.2 ⟨may, rfl⟩] at decided
  exact decided.1

/-- An object whose name is held is refused as a conflict. -/
theorem create_of_held (calm : store.hazard = .none) (takes : store.keyRule.TakesStorable)
    (storable : object.Storable bucket.settings.requireContentType) {holder : Bytes}
    (held : store.contents.names.get? object.entry.nameKey = some holder) :
    ((bucket.create object).run.run store).1 = .error (.nameTaken object.name object.owner) ∧
      ((bucket.create object).run.run store).2.contents = store.contents := by
  have refused : bucket.admission store.contents [object]
      = .error (.nameTaken object.name object.owner) := by
    rw [admission_singleton, Entry.prepare_eq_ok_iff.2 ⟨storable, rfl⟩]
    simp only [Contents.admitted, Contents.firstHeld, List.find?_cons, held, Option.isSome_some]
    rfl
  have decided := create_of_calm calm takes bucket object
  rw [refused] at decided
  exact decided

/-! ## Spellings that are sought -/

/-- A selection yields an object: it is valid and selects the metadata, and of the objects that are
fetched exactly one has the identity, and it is this object. -/
structure Yields (bucket : Bucket) (store : Store) (object : Object) (selection : Selection) :
    Prop where
  valid : selection.validate = .ok ()
  selects : selection.selects object.metadata = true
  fetched : ∃ objects, ((bucket.fetchSelected selection).run.run store).1 = .ok objects ∧
    objects.filter (fun found => found.identity = object.identity) = [object]

/-- A bucket knows an object by its name and a spelling of its owner. -/
structure Knows (bucket : Bucket) (store : Store) (object : Object) (spelling : String) :
    Prop where
  fetched : ((bucket.fetchNamed object.name spelling).run.run store).1 = .ok object.sealed
  removed : ∃ last, (bucket.deleteNamed object.name spelling).run.run store = (.ok (), last) ∧
    store.contents.LeavesOut [object] last.contents
  /-- No other object of the name and the owner can be created. -/
  unique : ∀ other : Object, other.OwnedAs spelling → other.name = object.name →
    other.Storable bucket.settings.requireContentType →
    ∃ last, (bucket.create other).run.run store
        = (.error (.nameTaken object.name object.owner), last) ∧ last.contents = store.contents
  /-- Every selection of the owner that suits the object otherwise yields it. -/
  selected : ∀ selection : Selection, selection.Carries Metadata.Key.owner.text spelling →
    selection.connective = .all → selection.Suits Metadata.Key.owner.text object.metadata →
    bucket.Yields store object.sealed selection

/-- An object that is found is yielded by every selection that its metadata satisfies. -/
theorem Finds.yields {identity : Uuid} (finds : bucket.Finds store object)
    (describes : object.metadata.Describes identity name owner)
    (joined : selection.connective = .all)
    (satisfied : selection.parameters.constraints ≠ [] ∧
      ∀ entry ∈ selection.parameters.constraints, object.metadata.satisfies entry = true)
    (named : selection.NamesWithOwner) : bucket.Yields store object selection := by
  have valid := Selection.validate_of_satisfied describes satisfied.1 satisfied.2 named
  have selects := (Selection.selects_iff_of_all joined).2 satisfied
  refine ⟨valid, selects, ?_⟩
  obtain ⟨objects, fetched, single⟩ := finds.bySelection selection valid
  rw [selects, if_pos rfl] at single
  exact ⟨objects, fetched, single⟩

/-- An object whose entry is there is known by every spelling of its owner. -/
theorem knows_of_has (calm : store.hazard = .none) (takes : store.keyRule.TakesStorable)
    (recorded : store.contents.Recorded) (has : store.contents.Has object.entry)
    (owned : object.OwnedAs first) (given : owner.Spells first) (sought : owner.Spells second)
    (storable : object.Storable bucket.settings.requireContentType) :
    bucket.Knows store object second := by
  have made := owned.made
  have sound := Entry.sound made storable
  have canonical : Uuid.canonicalise second = object.owner :=
    sought.canonicalise_eq.trans (owned.owner_eq given).symm
  have finds : bucket.Finds store object.sealed := has.finds calm recorded made sound
  obtain ⟨_, _, describes⟩ := (made.orderly storable.unsealed).describes storable.valid
  refine ⟨finds.byName second canonical, ?_, fun other otherOwned sameName otherStorable => ?_, ?_⟩
  · have removed := @deleteNamed_of_found _ bucket _ _ _ _ calm (has.resolved sound canonical)
      (has.metadataOf made)
    refine ⟨_, Prod.fst_eq_iff.1 removed.1, ?_⟩
    rw [removed.2]
    exact Contents.leavesOut_without describes
  · have sameOwner : other.owner = object.owner :=
      (otherOwned.owner_eq sought).trans (owned.owner_eq given).symm
    have held : store.contents.names.get? other.entry.nameKey = some object.entry.key := by
      show store.contents.names.get? (nameKey other.name other.owner) = _
      rw [sameName, sameOwner]
      exact has.name
    have refused := create_of_held calm takes otherStorable held
    rw [sameName, sameOwner] at refused
    exact ⟨_, Prod.fst_eq_iff.1 refused.1, refused.2⟩
  · intro selection carries joined suits
    have satisfied := carries.satisfied (.inl rfl) sought (owned.hasOwner given) suits
    refine finds.yields describes joined satisfied fun _ => ?_
    rw [Selection.constraint?, carries.get?_parameters (.inl rfl) sought]
    simp [owner.toText_ne_empty]

/-- The spelling of an identifier makes no difference. An object whose owner was given in one
spelling, with a name of 1 to 255 bytes that is free, can be created. Once it is, it is fetched,
removed, kept unique and selected by every other spelling of the owner, and it is selected by every
spelling of its identity. -/
theorem spelling_makes_no_difference (calm : store.hazard = .none)
    (takes : store.keyRule.TakesStorable) (consistent : store.contents.Consistent)
    (given : owner.Spells first) (sought : owner.Spells second) (owned : object.OwnedAs first) :
    (object.isSealed = false → 1 ≤ object.name.utf8ByteSize → object.name.utf8ByteSize ≤ 255 →
      (bucket.settings.requireContentType = true → object.contentType?.getD "" ≠ "") →
      store.contents.get? .name object.entry.nameKey = none →
      ((bucket.create object).run.run store).1 = .ok object.sealed) ∧
    ∀ after, bucket.Receives object store after →
      bucket.Knows after object second ∧
      ∀ text, object.identity.Spells text → ∀ selection : Selection,
        selection.Carries Metadata.Key.id.text text → selection.connective = .all →
        selection.Suits Metadata.Key.id.text object.metadata → selection.NamesWithOwner →
        bucket.Yields after object.sealed selection := by
  have made := owned.made
  constructor
  · intro unsealed nonempty short typed free
    exact create_of_free calm takes (owned.storable given unsealed nonempty short typed) free
  · intro after received
    obtain ⟨hold, storable, recorded, has⟩ := received.has calm consistent.recorded made
    have takesAfter : after.keyRule.TakesStorable := hold.keyRule ▸ takes
    refine ⟨knows_of_has (hold.calm id) takesAfter recorded has owned given sought storable, ?_⟩
    intro text spells selection carries joined suits named
    have finds : bucket.Finds after object.sealed :=
      has.finds (hold.calm id) recorded made (Entry.sound made storable)
    obtain ⟨_, _, describes⟩ := (made.orderly storable.unsealed).describes storable.valid
    have satisfied := carries.satisfied (.inr rfl) spells describes.hasIdentity suits
    exact finds.yields describes joined satisfied named

/-- A report is created for an owner in braces and capitals, next to the summary. It is known by
the owner after the marker, and selected by owner and name, and by the plain digits of its
identity. -/
theorem spelling_makes_no_difference_report :
    let bucket := (⟨{}, none⟩ : Bucket).withMode .independent
    let store : Store :=
      { contents := ({} : Contents).withEntry Object.summary.entry, keyRule := .pageBound }
    let owner := "URN:uuid:00000000-0000-0000-0000-00000000000a"
    let everything : Selection := { connective := .all }
    ∃ object after,
      (Object.create {} ⟨0, 0⟩ "report" "\x7b00000000-0000-0000-0000-00000000000A\x7d").1
        = .ok object ∧
      (bucket.create object).run.run store = (.ok object.sealed, after) ∧
      bucket.Knows after object owner ∧
      bucket.Yields after object.sealed ((everything.owner owner).name "report") ∧
      bucket.Yields after object.sealed (everything.id (String.ofList object.identity.digits)) := by
  intro bucket store owner everything
  let report := Object.make (Uuid.Source.next {}).1 ⟨0xA⟩ "report" ⟨0, 0⟩
  have created : (Object.create {} ⟨0, 0⟩ "report"
      "\x7b00000000-0000-0000-0000-00000000000A\x7d").1 = .ok report := by decide +kernel
  have consistent : store.contents.Consistent :=
    Contents.consistent_of_sound (@Entry.sound false _ Object.made_summary ⟨rfl, by decide +kernel⟩)
  obtain ⟨stores, received⟩ := @spelling_makes_no_difference bucket store report ⟨0xA⟩ _ owner rfl
    KeyRule.takesStorable_pageBound consistent (by decide +kernel) (by decide +kernel)
    (.create created ⟨by decide +kernel, by decide +kernel⟩)
  have done : (bucket.create report).run.run store
      = (.ok report.sealed, ((bucket.create report).run.run store).2) :=
    Prod.fst_eq_iff.1 (stores rfl (by decide +kernel) (by decide +kernel)
      (fun required => absurd required (by decide)) (by decide +kernel))
  obtain ⟨knows, yields⟩ := received _ (.alone done)
  refine ⟨report, _, created, done, knows, ?_, ?_⟩
  · exact knows.selected _ (.further (.added _) (by decide) _) rfl (by decide +kernel)
  · exact yields _ (by decide +kernel) _ (.added _) rfl (by decide +kernel) (by decide +kernel)

end Bucket

end Depot
