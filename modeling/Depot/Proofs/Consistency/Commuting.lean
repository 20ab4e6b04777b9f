import Mathlib.Data.List.Pairwise
import Depot.Proofs.Bucket.Spellings
import Depot.Proofs.Consistency.Retrying
import Depot.Proofs.Runs.Modes

/-!
# Edits in any order

An edit creates or deletes a single object. What it is answered and what it changes is decided by
the record of its identity and by the name it claims, so edits that are about different objects
find each other's doings irrelevant: each is answered as if it came first, and what they change
is the same in any order. What is selected afterwards is told by the regions alone, and is the
same, too.
-/

namespace Depot

namespace Contents

variable {left right : Contents} {identity : Uuid} {entry other : Entry}

/-- Whether an object is stored is told by the record of its identity. -/
theorem stores_congr {name : String} {owner : Uuid}
    (same : left.records.get? identity.key = right.records.get? identity.key) :
    left.Stores identity name owner ↔ right.Stores identity name owner := by
  rw [Stores, Stores, same]

theorem RecordedAt.congr (recorded : left.RecordedAt identity)
    (same : left.records.get? identity.key = right.records.get? identity.key) :
    right.RecordedAt identity :=
  fun record found => recorded record (same.trans found)

/-- Whether an entry is admitted is told by its name. -/
theorem admitted_congr (same : left.names.get? entry.nameKey = right.names.get? entry.nameKey) :
    left.admitted [entry] = right.admitted [entry] := by
  simp only [admitted, firstHeld, List.find?_cons, List.find?_nil, same]

/-- Entries with different keys may be written in either order. -/
theorem withEntry_comm (contents : Contents)
    (apart : ∀ region, entry.keyIn region ≠ other.keyIn region) :
    (contents.withEntry entry).withEntry other = (contents.withEntry other).withEntry entry := by
  refine ext_get? fun region key => ?_
  simp only [get?_withEntry]
  by_cases own : key = entry.keyIn region
  · subst own
    rw [if_neg (apart region), if_pos rfl, if_pos rfl]
  · rw [if_neg own, if_neg own]

/-- Objects may be left out in either order. -/
theorem without_comm (contents : Contents) (first second : Uuid) (metadata later : Metadata) :
    (contents.without first metadata).without second later
      = (contents.without second later).without first metadata := by
  refine ext_get? fun region key => Option.ext fun value => ?_
  simp only [get?_without_iff]
  exact and_right_comm

end Contents

namespace Bucket

/-- What is asked about a single object. -/
inductive Edit where
  | create (object : Object)
  | delete (identity : Uuid)

/-- Replies to requests, one after the other. -/
def replies (bucket : Bucket) (requests : List Request) : StateM Store (List Reply) :=
  requests.mapM bucket.reply

/-- The first request is replied to, and then the others. -/
theorem run_replies_cons (bucket : Bucket) (request : Request) (requests : List Request)
    (store : Store) : (bucket.replies (request :: requests)).run store
      = let next := (bucket.reply request).run store
        let finish := (bucket.replies requests).run next.2
        (next.1 :: finish.1, finish.2) := by
  rw [replies, List.mapM_cons]
  rfl

namespace Edit

/-- The request for an edit. -/
def request : Edit → Request
  | .create object => .create object
  | .delete identity => .delete identity

/-- The identity of the object that an edit is about. -/
def identity : Edit → Uuid
  | .create object => object.identity
  | .delete identity => identity

/-- The object that an edit is about has this name and this owner. What is to be deleted has
those under which it is stored, if it is. -/
def Titled (contents : Contents) : Edit → String × String → Prop
  | .create object, title => object.title = title
  | .delete identity, title =>
    ∃ name owner, contents.Stores identity name owner ∧ (name, owner.toText) = title

/-- Two edits are about objects with different identities, and with different names or
owners. -/
structure Apart (contents : Contents) (first second : Edit) : Prop where
  identities : first.identity ≠ second.identity
  titles : ∀ title, first.Titled contents title → ¬ second.Titled contents title

/-- What an edit is answered, as the contents decide it. -/
def answer (bucket : Bucket) (contents : Contents) : Edit → Reply
  | .create object => .created ((bucket.admission contents [object]).map fun _ => object.sealed)
  | .delete identity => .done ((contents.metadataOf identity).map fun _ => ())

/-- What an edit makes of contents, once it is decided on those before. -/
def change (bucket : Bucket) (before : Contents) : Edit → Contents → Contents
  | .create object, contents =>
    match bucket.admission before [object] with
    | .ok _ => contents.withEntry object.entry
    | .error _ => contents
  | .delete identity, contents =>
    match before.metadataOf identity with
    | .ok metadata => contents.without identity metadata
    | .error _ => contents

variable {bucket : Bucket} {before contents : Contents} {store : Store} {edit first second : Edit}
  {edits reordered : List Edit} {object : Object} {identity : Uuid}

theorem Apart.symm (apart : first.Apart contents second) : second.Apart contents first :=
  ⟨apart.identities.symm, fun title second first => apart.titles title first second⟩

instance : Std.Symm (Apart contents) := ⟨fun _ _ => Apart.symm⟩

/-- Where no call is refused, an edit is answered and done as the contents decide. -/
theorem run_reply (calm : store.hazard = .none) (takes : store.keyRule.TakesStorable)
    (bucket : Bucket) (edit : Edit) :
    ((bucket.reply edit.request).run store).1 = edit.answer bucket store.contents ∧
      ((bucket.reply edit.request).run store).2.contents
        = edit.change bucket store.contents store.contents := by
  cases edit with
  | create object =>
      have created := create_of_calm calm takes bucket object
      simp only [request, answer, change, reply, StateT.run_map]
      cases admitted : bucket.admission store.contents [object] with
      | error error =>
          rw [admitted] at created
          exact ⟨congrArg Reply.created created.1, created.2⟩
      | ok entries =>
          rw [admitted] at created
          exact ⟨congrArg Reply.created created.1, created.2⟩
  | delete identity =>
      have deleted := bucket.delete_of_calm calm identity
      simp only [request, answer, change, reply, StateT.run_map]
      cases found : store.contents.metadataOf identity with
      | error error =>
          rw [found] at deleted
          exact ⟨congrArg Reply.done deleted.1, deleted.2⟩
      | ok metadata =>
          rw [found] at deleted
          exact ⟨congrArg Reply.done deleted.1, deleted.2⟩

/-! ## What an edit leaves alone -/

/-- An edit leaves the record of any other identity. -/
theorem records_change (apart : edit.identity ≠ identity) :
    (edit.change bucket before contents).records.get? identity.key
      = contents.records.get? identity.key := by
  have other : identity.key ≠ edit.identity.key := fun same => apart (Uuid.key_injective same.symm)
  cases edit with
  | create object =>
      simp only [change]
      cases bucket.admission before [object] with
      | error => rfl
      | ok => exact OrderedMap.get?_insert_of_ne _ _ other
  | delete target =>
      simp only [change]
      cases before.metadataOf target with
      | error => rfl
      | ok metadata =>
          show ((contents.withoutName target metadata).records.erase target.key).get? _ = _
          rw [Contents.records_withoutName]
          exact OrderedMap.get?_erase_of_ne _ other

/-- An edit leaves the name of an object that may be stored and that it is not about. -/
theorem names_change (recorded : contents.RecordedAt edit.identity)
    (storable : object.Storable bucket.settings.requireContentType)
    (apart : edit.Apart contents (.create object)) :
    (edit.change bucket contents contents).names.get? object.entry.nameKey
      = contents.names.get? object.entry.nameKey := by
  cases edit with
  | create other =>
      simp only [change]
      cases admitted : bucket.admission contents [other] with
      | error => rfl
      | ok =>
          have otherStorable := (mayStore_cons_iff.1 (admission_eq_ok_iff.1 admitted).1).1
          refine OrderedMap.get?_insert_of_ne _ _ fun same => apart.titles _ rfl ?_
          exact storable.title_eq otherStorable same
  | delete target =>
      simp only [change]
      cases found : contents.metadataOf target with
      | error => rfl
      | ok metadata =>
          obtain ⟨name, owner, describes, stores⟩ := recorded.describes found
          refine Option.ext fun value => (Contents.get?_withoutName_iff describes).trans ?_
          refine and_iff_left fun leads => apart.titles _ ⟨name, owner, stores, rfl⟩ ?_
          obtain ⟨_, _, _, spelled, _⟩ := Object.validate_eq_ok_iff.1 storable.valid
          obtain ⟨names, owners⟩ :=
            eq_of_nameKey_of_isSpelling spelled (Uuid.isSpelling_toText owner) leads.1.symm
          exact Prod.ext names owners

/-- So an edit about another object has no bearing on what is decided. -/
theorem admission_change (recorded : contents.RecordedAt edit.identity)
    (apart : edit.Apart contents (.create object)) :
    bucket.admission (edit.change bucket contents contents) [object]
      = bucket.admission contents [object] := by
  rw [admission_singleton, admission_singleton]
  cases prepared : Entry.prepare bucket.settings.requireContentType object with
  | error cause => rfl
  | ok entry =>
      obtain ⟨storable, rfl⟩ := Entry.prepare_eq_ok_iff.1 prepared
      exact Contents.admitted_congr (names_change recorded storable apart)

/-- After an edit, another about another object is answered, and changes what there is, as
before. -/
theorem decided_change (recorded : contents.RecordedAt first.identity)
    (apart : first.Apart contents second) :
    second.answer bucket (first.change bucket contents contents) = second.answer bucket contents ∧
      second.change bucket (first.change bucket contents contents)
        = second.change bucket contents := by
  cases second with
  | create object =>
      have same := @admission_change bucket _ _ _ recorded apart
      generalize first.change bucket contents contents = after at same ⊢
      exact ⟨by simp only [answer, same], funext fun _ => by simp only [change, same]⟩
  | delete identity =>
      have same : (first.change bucket contents contents).metadataOf identity
          = contents.metadataOf identity :=
        Contents.metadataOf_congr (records_change apart.identities)
      generalize first.change bucket contents contents = after at same ⊢
      exact ⟨by simp only [answer, same], funext fun _ => by simp only [change, same]⟩

/-- After an edit, another is about the same name and owner as before. -/
theorem titled_change {title : String × String} (apart : edit.identity ≠ second.identity) :
    second.Titled (edit.change bucket contents contents) title ↔ second.Titled contents title := by
  cases second with
  | create object => rfl
  | delete identity =>
      refine exists_congr fun name => exists_congr fun owner => and_congr_left fun _ => ?_
      exact Contents.stores_congr (records_change apart)

/-- So two that were apart stay so. -/
theorem Apart.change (apart : first.Apart contents second)
    (fromFirst : edit.identity ≠ first.identity) (fromSecond : edit.identity ≠ second.identity) :
    first.Apart (edit.change bucket contents contents) second := by
  refine ⟨apart.identities, fun title titled => ?_⟩
  rw [titled_change fromSecond]
  exact apart.titles title ((titled_change fromFirst).1 titled)

/-- The entries of objects with different identities and titles that may be stored have different
keys everywhere. -/
theorem keyIn_ne {requireContentType : Bool} {other : Object}
    (storable : object.Storable requireContentType)
    (otherStorable : other.Storable requireContentType)
    (apart : Apart contents (.create object) (.create other)) (region : Region) :
    object.entry.keyIn region ≠ other.entry.keyIn region := by
  have identities : object.identity.key ≠ other.identity.key :=
    fun same => apart.identities (Uuid.key_injective same)
  cases region with
  | payload => exact identities
  | name => exact fun same => apart.titles _ rfl (storable.title_eq otherStorable same).symm
  | metadata => exact identities

/-- What two edits change that are apart, they change in either order. -/
theorem change_comm (apart : first.Apart before second) (contents : Contents) :
    second.change bucket before (first.change bucket before contents)
      = first.change bucket before (second.change bucket before contents) := by
  cases first with
  | create object =>
      cases second with
      | create other =>
          simp only [Edit.change]
          cases admitted : bucket.admission before [object] with
          | error => rfl
          | ok =>
              cases otherAdmitted : bucket.admission before [other] with
              | error => rfl
              | ok =>
                  have storable := (mayStore_cons_iff.1 (admission_eq_ok_iff.1 admitted).1).1
                  have otherStorable :=
                    (mayStore_cons_iff.1 (admission_eq_ok_iff.1 otherAdmitted).1).1
                  exact Contents.withEntry_comm _ (keyIn_ne storable otherStorable apart)
      | delete target =>
          simp only [Edit.change]
          cases bucket.admission before [object] with
          | error => rfl
          | ok =>
              cases before.metadataOf target with
              | error => rfl
              | ok => exact Contents.without_withEntry_of_ne _ apart.identities
  | delete identity =>
      cases second with
      | create other =>
          simp only [Edit.change]
          cases bucket.admission before [other] with
          | error => rfl
          | ok =>
              cases before.metadataOf identity with
              | error => rfl
              | ok => exact (Contents.without_withEntry_of_ne _ apart.identities.symm).symm
      | delete target =>
          simp only [Edit.change]
          cases before.metadataOf identity with
          | error => rfl
          | ok =>
              cases before.metadataOf target with
              | error => rfl
              | ok => exact Contents.without_comm _ _ _ _ _

/-! ## Edits one after the other -/

/-- Where no call is refused, edits that are apart are each answered and done as if it came
first. -/
theorem run_replies (calm : store.hazard = .none) (takes : store.keyRule.TakesStorable)
    (recorded : ∀ edit ∈ edits, store.contents.RecordedAt edit.identity)
    (apart : edits.Pairwise (Apart store.contents)) :
    ((bucket.replies (edits.map request)).run store).1 = edits.map (answer bucket store.contents) ∧
      ((bucket.replies (edits.map request)).run store).2.contents
        = edits.foldl (fun contents edit => edit.change bucket store.contents contents)
            store.contents ∧
      (Circumstances.reliable store.keyRule).Hold
        ((bucket.replies (edits.map request)).run store).2 := by
  induction edits generalizing store with
  | nil => exact ⟨rfl, rfl, Circumstances.hold_of_calm calm⟩
  | cons edit rest inductionHypothesis =>
      obtain ⟨here, later⟩ := List.pairwise_cons.1 apart
      obtain ⟨recordedHere, recordedLater⟩ := List.forall_mem_cons.1 recorded
      obtain ⟨answered, changed⟩ := run_reply calm takes bucket edit
      have hold := ((bucket.leads_reply edit.request).outcome_of_calm calm).2
      rw [List.map_cons, run_replies_cons]
      generalize (bucket.reply edit.request).run store = next at *
      obtain ⟨reply, between⟩ := next
      dsimp only at *
      -- nothing is decided otherwise after the first edit
      have decided : ∀ other ∈ rest, other.answer bucket between.contents
            = other.answer bucket store.contents ∧
          other.change bucket between.contents = other.change bucket store.contents := by
        intro other member
        rw [changed]
        exact decided_change recordedHere (here other member)
      have recordedBetween : ∀ other ∈ rest, between.contents.RecordedAt other.identity := by
        intro other member
        refine (recordedLater other member).congr ?_
        rw [changed]
        exact (records_change (here other member).identities).symm
      have apartBetween : rest.Pairwise (Apart between.contents) := by
        rw [changed]
        refine later.imp_of_mem fun {one other} member otherMember stands => ?_
        exact stands.change (here one member).identities (here other otherMember).identities
      obtain ⟨answers, changes, holds⟩ :=
        inductionHypothesis (hold.calm id) (hold.keyRule ▸ takes) recordedBetween apartBetween
      rw [hold.keyRule] at holds
      refine ⟨?_, ?_, holds⟩
      · rw [List.map_cons, answered, answers, List.map_congr_left fun other member =>
          (decided other member).1]
      · rw [changes, List.foldl_cons, changed]
        refine List.foldl_ext _ _ _ fun contents other member => ?_
        rw [← changed, (decided other member).2]

/-- So edits that are apart may be done in any order. -/
theorem replies_of_perm (calm : store.hazard = .none) (takes : store.keyRule.TakesStorable)
    (recorded : ∀ edit ∈ edits, store.contents.RecordedAt edit.identity)
    (apart : edits.Pairwise (Apart store.contents)) (permuted : edits.Perm reordered) :
    ((bucket.replies (reordered.map request)).run store).1
        = reordered.map (answer bucket store.contents) ∧
      ((bucket.replies (reordered.map request)).run store).2.contents
        = ((bucket.replies (edits.map request)).run store).2.contents ∧
      (Circumstances.reliable store.keyRule).Hold
        ((bucket.replies (reordered.map request)).run store).2 := by
  have recordedThere : ∀ edit ∈ reordered, store.contents.RecordedAt edit.identity :=
    fun edit member => recorded edit (permuted.mem_iff.2 member)
  have apartThere : reordered.Pairwise (Apart store.contents) :=
    permuted.pairwise apart Apart.symm
  obtain ⟨answers, changes, hold⟩ := run_replies calm takes recordedThere apartThere
  obtain ⟨_, changesHere, _⟩ := run_replies calm takes recorded apart
  refine ⟨answers, changes.trans (Eq.trans ?_ changesHere.symm), hold⟩
  refine (permuted.foldl_eq' ?_ _).symm
  intro first member second secondMember contents
  by_cases same : first = second
  · rw [same]
  · exact change_comm (apart.forall member secondMember same) contents

/-- What follows is told by the contents alone: further edits are replied to in the same way, and
a selection finds the same objects in the same order. -/
theorem replies_congr {left right : Store} (calmLeft : left.hazard = .none)
    (calmRight : right.hazard = .none) (takesLeft : left.keyRule.TakesStorable)
    (takesRight : right.keyRule.TakesStorable) (same : left.contents = right.contents)
    (bucket : Bucket) (edits : List Edit) (selection : Selection) :
    ((bucket.replies (edits.map request ++ [.fetchSelected selection])).run left).1
      = ((bucket.replies (edits.map request ++ [.fetchSelected selection])).run right).1 := by
  induction edits generalizing left right with
  | nil =>
      have found : ∀ store : Store, store.hazard = .none →
          ((bucket.replies [.fetchSelected selection]).run store).1
            = [.objects (store.contents.objectsSelected selection)] := by
        intro store calm
        rw [run_replies_cons, ← fetchSelected_of_calm calm selection, reply, StateT.run_map]
        rfl
      exact (found left calmLeft).trans (same ▸ (found right calmRight).symm)
  | cons edit rest inductionHypothesis =>
      obtain ⟨answered, changed⟩ := run_reply calmLeft takesLeft bucket edit
      obtain ⟨answeredRight, changedRight⟩ := run_reply calmRight takesRight bucket edit
      have hold := ((bucket.leads_reply edit.request).outcome_of_calm calmLeft).2
      have holdRight := ((bucket.leads_reply edit.request).outcome_of_calm calmRight).2
      rw [List.map_cons, List.cons_append, run_replies_cons, run_replies_cons]
      dsimp only
      rw [answered, answeredRight, same]
      refine congrArg _ (inductionHypothesis (hold.calm id) (holdRight.calm id) ?_ ?_ ?_)
      · exact hold.keyRule ▸ takesLeft
      · exact holdRight.keyRule ▸ takesRight
      · rw [changed, changedRight, same]

end Edit

variable {store : Store}

/-- An object as it is stored where its name is free, or why it may not be stored. -/
def storedOrRefused (bucket : Bucket) (object : Object) : Except StoreError Object :=
  ((Entry.prepare bucket.settings.requireContentType object).mapError .invalid).map
    fun _ => object.sealed

/-- The creation of an object whose name is free is answered without a look at the others. -/
theorem answer_create_of_free {contents : Contents} {object : Object} (bucket : Bucket)
    (free : contents.get? .name object.entry.nameKey = none) :
    (Edit.create object).answer bucket contents = .created (bucket.storedOrRefused object) := by
  simp only [Edit.answer, storedOrRefused, admission_singleton]
  cases prepared : Entry.prepare bucket.settings.requireContentType object with
  | error cause => rfl
  | ok entry =>
      obtain ⟨_, rfl⟩ := Entry.prepare_eq_ok_iff.1 prepared
      have unheld : contents.names.get? object.entry.nameKey = none := free
      simp only [Contents.admitted, Contents.firstHeld, List.find?_cons, List.find?_nil, unheld]
      rfl

/-- Creations of objects with different identities and titles are apart. -/
theorem pairwise_apart_create {contents : Contents} {objects : List Object}
    (identities : (objects.map Object.identity).Nodup) (titles : (objects.map Object.title).Nodup) :
    (objects.map Edit.create).Pairwise (Edit.Apart contents) := by
  refine List.pairwise_map.2 ?_
  refine (List.pairwise_map.1 identities).imp₂ (fun first second apart distinct => ?_)
    (List.pairwise_map.1 titles)
  refine ⟨apart, ?_⟩
  rintro title rfl same
  exact distinct same.symm

/-- Where no call is refused, edits of different objects may be done in either order: each is
answered in the same way, and the regions end up the same. So objects with different identities,
names and owners, none of which is taken, may be created in any order. Each is stored unless it
may not be, the regions end up the same, and what is asked for later is answered in the same way. -/
theorem edits_commute (calm : store.hazard = .none) (takes : store.keyRule.TakesStorable)
    (consistent : store.contents.Consistent) (bucket : Bucket) :
    (∀ first second : Edit, first.Apart store.contents second →
      let forth := (bucket.replies [first.request, second.request]).run store
      let back := (bucket.replies [second.request, first.request]).run store
      (∃ one other, forth.1 = [one, other] ∧ back.1 = [other, one]) ∧
        forth.2.contents = back.2.contents) ∧
    ∀ objects reordered : List Object, objects.Perm reordered →
      (objects.map Object.identity).Nodup → (objects.map Object.title).Nodup →
      (∀ object ∈ objects, store.contents.get? .name object.entry.nameKey = none) →
      let forth := (bucket.replies (objects.map .create)).run store
      let back := (bucket.replies (reordered.map .create)).run store
      forth.1 = objects.map (fun object => .created (bucket.storedOrRefused object)) ∧
        back.1 = reordered.map (fun object => .created (bucket.storedOrRefused object)) ∧
        forth.2.contents = back.2.contents ∧
        ∀ (later : List Edit) (selection : Selection),
          let asked := later.map Edit.request ++ [.fetchSelected selection]
          ((bucket.replies asked).run forth.2).1 = ((bucket.replies asked).run back.2).1 := by
  have recorded : ∀ identity, store.contents.RecordedAt identity :=
    fun identity => consistent.recorded.recordedAt identity
  constructor
  · intro first second apart
    have pair : [first, second].Pairwise (Edit.Apart store.contents) := by simpa using apart
    have swapped : [first, second].Perm [second, first] := .swap _ _ _
    obtain ⟨answers, _⟩ := @Edit.run_replies bucket _ _ calm takes (fun _ _ => recorded _) pair
    obtain ⟨answersBack, changes, _⟩ :=
      @Edit.replies_of_perm bucket _ _ _ calm takes (fun _ _ => recorded _) pair swapped
    exact ⟨⟨_, _, answers, answersBack⟩, changes.symm⟩
  · intro objects reordered permuted identities titles free forth back
    have apart := @pairwise_apart_create store.contents _ identities titles
    -- what holds of every order in which the objects are created
    have created : ∀ others : List Object, objects.Perm others →
        ((bucket.replies (others.map .create)).run store).1
            = others.map (fun object => .created (bucket.storedOrRefused object)) ∧
          ((bucket.replies (others.map .create)).run store).2.contents = forth.2.contents ∧
          (Circumstances.reliable store.keyRule).Hold
            ((bucket.replies (others.map .create)).run store).2 := by
      intro others permuted
      obtain ⟨answers, changes, hold⟩ := @Edit.replies_of_perm bucket _ _ _ calm takes
        (fun _ _ => recorded _) apart (permuted.map Edit.create)
      simp only [List.map_map] at answers changes hold
      refine ⟨answers.trans (List.map_congr_left fun object member => ?_), changes, hold⟩
      exact bucket.answer_create_of_free (free object (permuted.mem_iff.2 member))
    obtain ⟨answers, _, hold⟩ := created objects (.refl _)
    obtain ⟨answersBack, changes, holdBack⟩ := created reordered permuted
    refine ⟨answers, answersBack, changes.symm, fun later selection => ?_⟩
    exact Edit.replies_congr (hold.calm id) (holdBack.calm id) (hold.keyRule ▸ takes)
      (holdBack.keyRule ▸ takes) changes.symm bucket later selection

/-- Next to the summary, a report and a notice are created in either order, and the summary may be
deleted before or after the report is created. -/
theorem edits_commute_summary :
    let bucket := (⟨{}, none⟩ : Bucket).withMode .independent
    let store : Store :=
      { contents := ({} : Contents).withEntry Object.summary.entry, keyRule := .pageBound }
    let report : Request := .create Object.report
    let notice : Request := .create Object.notice
    let deletion : Request := .delete Object.summary.identity
    ((bucket.replies [report, deletion]).run store).2.contents
        = ((bucket.replies [deletion, report]).run store).2.contents ∧
      ((bucket.replies [report, notice]).run store).1
        = [.created (.ok Object.report.sealed), .created (.ok Object.notice.sealed)] ∧
      ((bucket.replies [notice, report]).run store).1
        = [.created (.ok Object.notice.sealed), .created (.ok Object.report.sealed)] ∧
      ((bucket.replies [report, notice]).run store).2.contents
        = ((bucket.replies [notice, report]).run store).2.contents := by
  intro bucket store report notice deletion
  have sound : Object.summary.entry.Sound :=
    @Entry.sound false _ Object.made_summary ⟨rfl, by decide +kernel⟩
  have apart : (Edit.create Object.report).Apart store.contents
      (.delete Object.summary.identity) := by
    obtain ⟨_, _, described⟩ := id sound
    refine ⟨by decide, ?_⟩
    rintro _ rfl ⟨name, owner, stores, same⟩
    rcases (Contents.stores_withEntry_iff described).1 stores with ⟨_, rfl, _⟩ | ⟨other, _⟩
    · have names : Object.summary.name = Object.report.name := congrArg Prod.fst same
      exact absurd names (by decide +kernel)
    · exact other rfl
  obtain ⟨either, creations⟩ := @edits_commute store rfl KeyRule.takesStorable_pageBound
    (Contents.consistent_of_sound sound) bucket
  obtain ⟨forth, back, same, _⟩ := creations [Object.report, Object.notice]
    [Object.notice, Object.report] (.swap _ _ _) (by decide +kernel) (by decide +kernel)
    (by decide +kernel)
  have reported : bucket.storedOrRefused Object.report = .ok Object.report.sealed := by
    decide +kernel
  have noticed : bucket.storedOrRefused Object.notice = .ok Object.notice.sealed := by
    decide +kernel
  simp only [List.map_cons, List.map_nil, reported, noticed] at forth back same
  exact ⟨(either _ _ apart).2, forth, back, same⟩

end Bucket

end Depot
