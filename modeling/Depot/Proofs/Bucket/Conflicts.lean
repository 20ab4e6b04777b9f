import Depot.Proofs.Bucket.Batches
import Depot.Proofs.Bucket.Engines
import Depot.Proofs.Spelling

/-!
# Which object is told to be in the way

Where no call is refused, objects that are not stored fail for one of them: the first that may not
be stored at all, else the first whose name and owner an earlier one has, else the first whose name
is held. `Verdict` says so in terms of the objects alone. The bucket compares name keys instead, and
when a commit fails it has no more than the key that is taken, shown as text. Owners of objects that
may be stored are spelled identifiers, so a key belongs to one name and one owner, and both modes
come to the verdict.
-/

namespace Depot

section Beginnings

variable {α β : Type} {front otherFront list : List α} {one other : α}

theorem mem_of_begins (begins : front ++ [one] <+: list) : one ∈ list :=
  begins.subset (List.mem_append_right _ List.mem_cons_self)

/-- Of two elements with what stands before them, one stands before the other, or they are one. -/
theorem begins_cases (begins : front ++ [one] <+: list)
    (otherBegins : otherFront ++ [other] <+: list) :
    front = otherFront ∧ one = other ∨ front ++ [one] <+: otherFront ∨
      otherFront ++ [other] <+: front := by
  have before : front <+: list := (List.prefix_append _ _).trans begins
  have otherBefore : otherFront <+: list := (List.prefix_append _ _).trans otherBegins
  rcases Nat.lt_trichotomy front.length otherFront.length with shorter | same | longer
  · exact .inr (.inl (List.prefix_of_prefix_length_le begins otherBefore (by simpa using! shorter)))
  · have size : (front ++ [one]).length = (otherFront ++ [other]).length := by simpa using same
    have whole := (List.prefix_of_prefix_length_le begins otherBegins size.le).eq_of_length size
    obtain ⟨fronts, ones⟩ := List.append_inj' whole rfl
    exact .inl ⟨fronts, List.singleton_inj.1 ones⟩
  · exact .inr (.inr (List.prefix_of_prefix_length_le otherBegins before (by simpa using! longer)))

/-- An element of a mapped list, with what stands before it, comes from one of the list. -/
theorem begins_of_begins_map {change : α → β} {front : List β} {one : β}
    (begins : front ++ [one] <+: list.map change) :
    ∃ origins origin, origins ++ [origin] <+: list ∧ origins.map change = front ∧
      change origin = one := by
  obtain ⟨origins, before, mapped⟩ := List.prefix_map_iff.1 begins
  obtain ⟨origins, last, rfl, fronts, ones⟩ := List.map_eq_append_iff.1 mapped.symm
  obtain ⟨origin, rfl, same⟩ := List.map_eq_singleton_iff.1 ones
  exact ⟨origins, origin, before, fronts, same⟩

end Beginnings

/-- An engine takes the keys that are bound for objects that may be stored. -/
structure KeyRule.TakesStorable (rule : KeyRule) : Prop where
  names : ∀ name owner : String, name.utf8ByteSize ≤ Object.nameLimit →
    Uuid.isSpelling owner = true → rule.admitsBinding (nameKey name owner) = true
  identities : ∀ identity : Uuid, rule.admitsBinding identity.key = true

theorem KeyRule.takesStorable_unrestricted : KeyRule.unrestricted.TakesStorable :=
  ⟨fun _ _ _ _ => rfl, fun _ => rfl⟩

theorem KeyRule.takesStorable_pageBound : KeyRule.pageBound.TakesStorable where
  names _ _ short spelled :=
    admitsBinding_pageBound_nameKey short (Uuid.length_le_of_isSpelling spelled)
  identities := takesObjects_pageBound.identities

namespace Object

variable {requireContentType : Bool} {object other : Object} {cause : DataError}

/-- Name and owner of an object. -/
def title (object : Object) : String × String := (object.name, object.owner)

/-- Why an object may not be stored. The record of an object that is neither sealed nor invalid can
always be encoded, so that there is no third reason. -/
inductive Refused (requireContentType : Bool) (object : Object) : DataError → Prop where
  | sealed (isSealed : object.isSealed = true) :
      Refused requireContentType object (.sealed object.identity)
  | invalid {cause : DataError} (unsealed : object.isSealed = false)
      (fails : object.validate requireContentType = .error cause) :
      Refused requireContentType object cause

theorem Refused.not_storable (refused : object.Refused requireContentType cause) :
    ¬ object.Storable requireContentType := by
  intro storable
  cases refused with
  | sealed isSealed => exact absurd (storable.unsealed.symm.trans isSealed) (by simp)
  | invalid _ fails => exact absurd (storable.valid.symm.trans fails) (by simp)

/-- An object is refused for one reason. -/
theorem Refused.unique {otherCause : DataError} (refused : object.Refused requireContentType cause)
    (again : object.Refused requireContentType otherCause) : cause = otherCause := by
  cases refused with
  | sealed isSealed =>
      cases again with
      | sealed => rfl
      | invalid unsealed => exact absurd (unsealed.symm.trans isSealed) (by simp)
  | invalid unsealed fails =>
      cases again with
      | sealed isSealed => exact absurd (unsealed.symm.trans isSealed) (by simp)
      | invalid _ failsAgain => exact Except.error.inj (fails.symm.trans failsAgain)

/-- An object for which no entry is prepared is refused, and for that reason. -/
theorem refused_of_prepare_eq_error
    (failed : Entry.prepare requireContentType object = .error cause) :
    object.Refused requireContentType cause := by
  unfold Entry.prepare requireUnsealed at failed
  cases isSealed : object.isSealed with
  | true =>
      rw [isSealed] at failed
      obtain rfl := Except.error.inj failed
      exact .sealed isSealed
  | false =>
      rw [isSealed] at failed
      cases fails : object.validate requireContentType with
      | error reason =>
          rw [fails] at failed
          obtain rfl := Except.error.inj failed
          exact .invalid isSealed fails
      | ok =>
          rw [fails] at failed
          exact absurd failed (by simp [bind, Except.bind, pure, Except.pure])

/-- The name keys of objects that may be stored are those of their names and owners. -/
theorem Storable.title_eq (storable : object.Storable requireContentType)
    (otherStorable : other.Storable requireContentType)
    (same : object.entry.nameKey = other.entry.nameKey) : object.title = other.title := by
  obtain ⟨_, _, _, spelled, _⟩ := validate_eq_ok_iff.1 storable.valid
  obtain ⟨_, _, _, otherSpelled, _⟩ := validate_eq_ok_iff.1 otherStorable.valid
  obtain ⟨names, owners⟩ := eq_of_nameKey_of_isSpelling spelled otherSpelled same
  exact Prod.ext names owners

/-- Objects with different name keys have different names or owners. -/
theorem nodup_titles {objects : List Object}
    (distinct : ((objects.map entry).map Entry.nameKey).Nodup) : (objects.map title).Nodup := by
  refine List.Nodup.of_map (fun title => nameKey title.1 title.2) ?_
  rw [List.map_map] at distinct ⊢
  exact distinct

/-- Names and owners do not all differ where an object has those of an earlier one. -/
theorem not_nodup_titles {front objects : List Object} (begins : front ++ [object] <+: objects)
    (earlier : object.title ∈ front.map title) : ¬ (objects.map title).Nodup := by
  intro distinct
  have upTo := distinct.sublist (begins.map title).sublist
  rw [List.map_append, List.nodup_append] at upTo
  exact upTo.2.2 _ earlier _ (List.mem_map_of_mem List.mem_cons_self) rfl

/-- An engine that takes the keys of objects that may be stored admits their writes. -/
theorem Storable.admits {rule : KeyRule} (takes : rule.TakesStorable)
    (storable : object.Storable requireContentType) :
    ∀ write ∈ object.entry.fullWrite.writes, rule.Admits write := by
  obtain ⟨_, short, _, spelled, _⟩ := validate_eq_ok_iff.1 storable.valid
  exact Entry.admits_of_keys (takes.names _ _ short spelled) (takes.identities _)

end Object

/-- The first entry that is repeated, with what stands before it. -/
theorem Entry.exists_front_of_firstRepeated {seen : List Bytes} {entries : List Entry}
    {entry : Entry} (repeated : firstRepeated seen entries = some entry) :
    ∃ front, front ++ [entry] <+: entries ∧ (front.map nameKey).Nodup ∧
      (∀ earlier ∈ front, earlier.nameKey ∉ seen) ∧
      (entry.nameKey ∈ seen ∨ entry.nameKey ∈ front.map nameKey) := by
  induction entries generalizing seen with
  | nil => exact absurd repeated (by simp [firstRepeated])
  | cons head rest inductionHypothesis =>
      rw [firstRepeated] at repeated
      split at repeated
      · rename_i known
        obtain rfl := Option.some.inj repeated
        exact ⟨[], ⟨rest, rfl⟩, .nil, by simp, .inl known⟩
      · rename_i fresh
        obtain ⟨front, begins, distinct, apart, earlier⟩ := inductionHypothesis repeated
        refine ⟨head :: front, List.cons_prefix_cons.2 ⟨rfl, begins⟩, ?_, ?_, ?_⟩
        · refine List.nodup_cons.2 ⟨fun again => ?_, distinct⟩
          obtain ⟨other, member, same⟩ := List.mem_map.1 again
          exact apart other member (same ▸ List.mem_cons_self)
        · exact List.forall_mem_cons.2 ⟨fresh, fun other member known =>
            apart other member (List.mem_cons_of_mem _ known)⟩
        · rcases earlier with known | among
          · refine (List.mem_cons.1 known).symm.imp_right fun same => ?_
            exact List.mem_map.2 ⟨head, List.mem_cons_self, same.symm⟩
          · exact .inr (List.mem_cons_of_mem _ among)

namespace Bucket

variable {bucket : Bucket} {contents : Contents} {objects : List Object}

/-- Objects that are not all prepared are refused for the first that is refused. -/
theorem exists_front_of_prepareAll_eq_error {requireContentType : Bool} {cause : DataError}
    (failed : prepareAll requireContentType objects = .error cause) :
    ∃ front object, front ++ [object] <+: objects ∧
      (∀ earlier ∈ front, earlier.Storable requireContentType) ∧
      object.Refused requireContentType cause := by
  induction objects with
  | nil => exact absurd failed (by simp [prepareAll])
  | cons object rest inductionHypothesis =>
      rw [prepareAll] at failed
      cases prepared : Entry.prepare requireContentType object with
      | error reason =>
          rw [prepared] at failed
          obtain rfl := Except.error.inj failed
          exact ⟨[], object, ⟨rest, rfl⟩, by simp, Object.refused_of_prepare_eq_error prepared⟩
      | ok entry =>
          have storable := (Entry.prepare_eq_ok_iff.1 prepared).1
          cases others : prepareAll requireContentType rest with
          | error reason =>
              simp only [prepared, others] at failed
              obtain rfl := Except.error.inj failed
              obtain ⟨front, last, begins, fine, refused⟩ := inductionHypothesis others
              exact ⟨object :: front, last, List.cons_prefix_cons.2 ⟨rfl, begins⟩,
                List.forall_mem_cons.2 ⟨storable, fine⟩, refused⟩
          | ok entries =>
              simp only [prepared, others] at failed
              exact absurd failed (by simp)

/-- What storing objects comes to, told in terms of the objects. The first that may not be stored
is to blame; if all may, the first that has name and owner of an earlier one; if these differ, the
first whose name is held. -/
inductive Verdict (bucket : Bucket) (contents : Contents) (objects : List Object) :
    Except StoreError (List Uuid) → Prop where
  | refused {front : List Object} {object : Object} {cause : DataError}
      (begins : front ++ [object] <+: objects)
      (storable : ∀ earlier ∈ front, earlier.Storable bucket.settings.requireContentType)
      (refused : object.Refused bucket.settings.requireContentType cause) :
      Verdict bucket contents objects (.error (.invalid cause))
  | repeated {front : List Object} {object : Object}
      (storable : ∀ object ∈ objects, object.Storable bucket.settings.requireContentType)
      (begins : front ++ [object] <+: objects) (distinct : (front.map Object.title).Nodup)
      (earlier : object.title ∈ front.map Object.title) :
      Verdict bucket contents objects (.error (.nameTaken object.name object.owner))
  | taken {front : List Object} {object : Object}
      (storable : ∀ object ∈ objects, object.Storable bucket.settings.requireContentType)
      (distinct : (objects.map Object.title).Nodup) (begins : front ++ [object] <+: objects)
      (free : ∀ earlier ∈ front, contents.names.get? earlier.entry.nameKey = none)
      (held : (contents.names.get? object.entry.nameKey).isSome = true) :
      Verdict bucket contents objects (.error (.nameTaken object.name object.owner))
  | stored
      (storable : ∀ object ∈ objects, object.Storable bucket.settings.requireContentType)
      (distinct : (objects.map Object.title).Nodup)
      (free : ∀ object ∈ objects, contents.names.get? object.entry.nameKey = none) :
      Verdict bucket contents objects (.ok (objects.map Object.identity))

/-- Objects have one verdict. -/
theorem Verdict.unique {result otherResult : Except StoreError (List Uuid)}
    (verdict : bucket.Verdict contents objects result)
    (again : bucket.Verdict contents objects otherResult) : result = otherResult := by
  cases verdict with
  | refused begins fine refused =>
      have unfit : ¬ ∀ object ∈ objects, object.Storable bucket.settings.requireContentType :=
        fun storable => refused.not_storable (storable _ (mem_of_begins begins))
      cases again with
      | refused otherBegins otherFine otherRefused =>
          rcases begins_cases begins otherBegins with ⟨rfl, rfl⟩ | before | before
          · rw [refused.unique otherRefused]
          · exact absurd (otherFine _ (mem_of_begins before)) refused.not_storable
          · exact absurd (fine _ (mem_of_begins before)) otherRefused.not_storable
      | repeated storable => exact absurd storable unfit
      | taken storable => exact absurd storable unfit
      | stored storable => exact absurd storable unfit
  | repeated storable begins distinct earlier =>
      have unfit := Object.not_nodup_titles begins earlier
      cases again with
      | refused otherBegins _ refused =>
          exact absurd (storable _ (mem_of_begins otherBegins)) refused.not_storable
      | repeated _ otherBegins otherDistinct otherEarlier =>
          rcases begins_cases begins otherBegins with ⟨rfl, rfl⟩ | before | before
          · rfl
          · exact absurd otherDistinct (Object.not_nodup_titles before earlier)
          · exact absurd distinct (Object.not_nodup_titles before otherEarlier)
      | taken _ distinct => exact absurd distinct unfit
      | stored _ distinct => exact absurd distinct unfit
  | taken storable distinct begins free held =>
      cases again with
      | refused otherBegins _ refused =>
          exact absurd (storable _ (mem_of_begins otherBegins)) refused.not_storable
      | repeated _ otherBegins _ earlier =>
          exact absurd distinct (Object.not_nodup_titles otherBegins earlier)
      | taken _ _ otherBegins otherFree otherHeld =>
          rcases begins_cases begins otherBegins with ⟨rfl, rfl⟩ | before | before
          · rfl
          · exact absurd held (by simp [otherFree _ (mem_of_begins before)])
          · exact absurd otherHeld (by simp [free _ (mem_of_begins before)])
      | stored _ _ otherFree =>
          exact absurd held (by simp [otherFree _ (mem_of_begins begins)])
  | stored storable distinct free =>
      cases again with
      | refused otherBegins _ refused =>
          exact absurd (storable _ (mem_of_begins otherBegins)) refused.not_storable
      | repeated _ otherBegins _ earlier =>
          exact absurd distinct (Object.not_nodup_titles otherBegins earlier)
      | taken _ _ otherBegins _ held =>
          exact absurd held (by simp [free _ (mem_of_begins otherBegins)])
      | stored => rfl

/-- Of objects that may be stored, the first that has the name key of an earlier one is the first
that has its name and owner. -/
theorem verdict_of_firstRepeated {entry : Entry}
    (storable : ∀ object ∈ objects, object.Storable bucket.settings.requireContentType)
    (repeated : Entry.firstRepeated [] (objects.map Object.entry) = some entry) :
    bucket.Verdict contents objects (.error entry.conflict) := by
  obtain ⟨_, entriesBegin, distinct, _, earlier⟩ := Entry.exists_front_of_firstRepeated repeated
  obtain ⟨front, object, begins, rfl, rfl⟩ := begins_of_begins_map entriesBegin
  obtain ⟨_, among, sameKey⟩ := List.mem_map.1 (earlier.resolve_left (by simp))
  obtain ⟨other, inFront, rfl⟩ := List.mem_map.1 among
  have member : object ∈ objects := mem_of_begins begins
  have otherMember : other ∈ objects := begins.subset (List.mem_append_left _ inFront)
  have same := (storable other otherMember).title_eq (storable object member) sameKey
  exact .repeated storable begins (Object.nodup_titles distinct)
    (List.mem_map.2 ⟨other, inFront, same⟩)

/-- Objects that may be stored under different names are admitted by verdict. -/
theorem verdict_admitted
    (storable : ∀ object ∈ objects, object.Storable bucket.settings.requireContentType)
    (distinct : (objects.map Object.title).Nodup) :
    bucket.Verdict contents objects
      ((contents.admitted (objects.map Object.entry)).map fun entries =>
        entries.map Entry.identity) := by
  unfold Contents.admitted
  cases held : contents.firstHeld (objects.map Object.entry) with
  | some entry =>
      obtain ⟨taken, before, after, split, free⟩ := List.find?_eq_some_iff_append.1 held
      have entriesBegin : before ++ [entry] <+: objects.map Object.entry :=
        ⟨after, by simp [split]⟩
      obtain ⟨front, object, begins, rfl, rfl⟩ := begins_of_begins_map entriesBegin
      refine .taken storable distinct begins (fun earlier member => ?_) taken
      simpa using free _ (List.mem_map_of_mem member)
  | none =>
      have free := List.find?_eq_none.1 held
      have stored : bucket.Verdict contents objects (.ok (objects.map Object.identity)) :=
        .stored storable distinct fun object member => by
          simpa using free _ (List.mem_map_of_mem member)
      simpa [Except.map, Object.entry, Function.comp_def] using stored

/-- The decision that is made before anything is written is the verdict. -/
theorem verdict_admission (bucket : Bucket) (contents : Contents) (objects : List Object) :
    bucket.Verdict contents objects
      ((bucket.admission contents objects).map fun entries => entries.map Entry.identity) := by
  unfold admission prepareBatch
  cases prepared : prepareAll bucket.settings.requireContentType objects with
  | error cause =>
      obtain ⟨front, object, begins, storable, refused⟩ :=
        exists_front_of_prepareAll_eq_error prepared
      exact .refused begins storable refused
  | ok entries =>
      obtain ⟨storable, rfl⟩ := prepareAll_eq_ok_iff.1 prepared
      dsimp only
      cases repeated : Entry.firstRepeated [] (objects.map Object.entry) with
      | some entry => exact verdict_of_firstRepeated storable repeated
      | none =>
          have distinct := (Entry.firstRepeated_eq_none_iff.1 repeated).2
          exact verdict_admitted storable (Object.nodup_titles distinct)

/-- A result is the verdict if it is that of the decision made before. -/
theorem leads_createBatch_verdict (bucket : Bucket) (objects : List Object) :
    Leads (.reliable .unrestricted) (bucket.createBatch objects) contents fun creation after =>
      bucket.Verdict contents objects creation.result ∧
        ∀ error, creation.result = .error error → after = contents ∧ creation.objects = objects := by
  refine (leads_createBatch_inMemory bucket objects).mono fun creation after reached => ?_
  have verdict := verdict_admission bucket contents objects
  cases admitted : bucket.admission contents objects with
  | error error =>
      rw [admitted] at verdict reached
      obtain ⟨rfl, rfl⟩ := reached
      exact ⟨verdict, fun _ _ => ⟨rfl, rfl⟩⟩
  | ok entries =>
      rw [admitted] at verdict reached
      obtain ⟨rfl, rfl⟩ := reached
      obtain ⟨_, rfl⟩ := admission_eq_ok_iff.1 admitted
      refine ⟨?_, fun _ failed => absurd failed (by simp)⟩
      simpa [Except.map, Object.entry, Function.comp_def] using verdict

/-- One object is stored as it would be together with no others. -/
theorem leads_create_verdict (bucket : Bucket) (object : Object) :
    Leads (.reliable .unrestricted) (bucket.create object).run contents fun result after =>
      bucket.Verdict contents [object] (result.map fun stored => [stored.identity]) ∧
        ∀ error, result = .error error → after = contents := by
  refine (leads_create_inMemory bucket object).mono fun result after reached => ?_
  have verdict := verdict_admission bucket contents [object]
  cases admitted : bucket.admission contents [object] with
  | error error =>
      rw [admitted] at verdict reached
      obtain ⟨rfl, rfl⟩ := reached
      exact ⟨verdict, fun _ _ => rfl⟩
  | ok entries =>
      rw [admitted] at verdict reached
      obtain ⟨rfl, rfl⟩ := reached
      obtain ⟨_, rfl⟩ := admission_eq_ok_iff.1 admitted
      exact ⟨verdict, fun _ failed => absurd failed (by simp)⟩

/-- Storing several objects, or one, comes to the verdict in either mode, on every engine that takes
their keys and refuses no call. If it fails, nothing is stored and no object is sealed. -/
theorem createBatch_blames_first {store : Store} (calm : store.hazard = .none)
    (takes : store.keyRule.TakesStorable) (bucket : Bucket) :
    (∀ objects, let ran := (bucket.createBatch objects).run store
      bucket.Verdict store.contents objects ran.1.result ∧
        ∀ error, ran.1.result = .error error →
          ran.2.contents = store.contents ∧ ran.1.objects = objects) ∧
    ∀ object, let ran := (bucket.create object).run.run store
      bucket.Verdict store.contents [object] (ran.1.map fun stored => [stored.identity]) ∧
        ∀ error, ran.1 = .error error → ran.2.contents = store.contents := by
  have quiet : store.hazard.IsQuiet := calm ▸ Hazard.isQuiet_none
  constructor
  · intro objects
    exact (Abides.outcome_of_run
      (abides_createBatch_of_admits fun _ _ storable => storable.admits takes) quiet
      (leads_createBatch_verdict bucket objects)).1
  · intro object
    exact (Abides.outcome_of_run
      (abides_create_of_admits fun storable => storable.admits takes) quiet
      (leads_create_verdict bucket object)).1

/-- The name of the first object is held, but the name that is told is that of the third, which
the second has as well. -/
theorem createBatch_blames_first_minutes :
    let bucket := (⟨{}, none⟩ : Bucket).withMode .independent
    let store : Store :=
      { contents := ({} : Contents).withEntry Object.report.entry, keyRule := .pageBound }
    let minutes := Object.make ⟨7⟩ ⟨3⟩ "minutes" ⟨0, 0⟩
    let objects := [Object.secondReport, minutes, minutes]
    let ran := (bucket.createBatch objects).run store
    (bucket.Verdict store.contents objects ran.1.result ∧
        ∀ error, ran.1.result = .error error →
          ran.2.contents = store.contents ∧ ran.1.objects = objects) ∧
      ran.1.result = .error (.nameTaken "minutes" (⟨3⟩ : Uuid).toText) :=
  ⟨(createBatch_blames_first rfl KeyRule.takesStorable_pageBound _).1 _, by decide +kernel⟩

end Bucket

end Depot
