import Depot.Proofs.Bucket.Modes

/-!
# Several objects at once and one after the other

Where no call is refused, storing objects is decided before anything is written: each must pass
its checks, and their names must be free and differ from each other. `admission` is that decision,
for one object as for several and in both modes. One object after the other is admitted exactly if
all of them are admitted at once, since each takes its own name only, and the same contents are
left. An atomic batch that fails has done nothing, whatever made it fail.
-/

namespace Depot

/-- A commit that fails leaves the contents as they are, whatever it fails for. -/
theorem Session.contents_of_commit_error {store : Store} {batch : Batch} {error : StoreError}
    (failed : ((commit batch).run.run store).1 = .error error) :
    ((commit batch).run.run store).2.contents = store.contents := by
  have met : (call .commit batch).run.run store = ((store.hazard.meet .commit batch).1,
      { store with hazard := (store.hazard.meet .commit batch).2 }) := rfl
  rw [commit, run_bind, met] at failed ⊢
  cases verdict : (store.hazard.meet .commit batch).1 with
  | error refusal => rfl
  | ok =>
      rw [verdict] at failed
      dsimp only at failed ⊢
      rw [run_apply] at failed ⊢
      split at failed
      · exact absurd failed (by simp)
      · rfl

namespace Contents

/-- Entries are admitted unless the name of one of them is held. -/
def admitted (contents : Contents) (entries : List Entry) : Except StoreError (List Entry) :=
  match contents.firstHeld entries with
  | some entry => .error entry.conflict
  | none => .ok entries

/-- Entries with different names are admitted exactly if none of the names is held. -/
theorem admitted_eq_ok_iff {contents : Contents} {entries given : List Entry}
    (distinct : (entries.map Entry.nameKey).Nodup) :
    contents.admitted entries = .ok given ↔ contents.Admits entries ∧ entries = given := by
  unfold admitted
  cases held : contents.firstHeld entries with
  | none =>
      have admits := Admits.of_firstHeld distinct held
      simp [admits]
  | some entry =>
      have refused : ¬ contents.Admits entries := fun admits => by
        have free := admits.free entry (List.mem_of_find?_eq_some held)
        have taken := List.find?_some held
        simp [free] at taken
      simp [refused]

end Contents

namespace Bucket

variable {bucket : Bucket} {before : Contents} {object : Object} {objects : List Object}

/-- Objects may be stored together: each may be stored, and their names are free and differ. -/
structure MayStore (bucket : Bucket) (contents : Contents) (objects : List Object) : Prop where
  storable : ∀ object ∈ objects, object.Storable bucket.settings.requireContentType
  admits : contents.Admits (objects.map Object.entry)

/-- Objects may be stored together exactly if the first may be stored and the others may be
stored after it. -/
theorem mayStore_cons_iff : bucket.MayStore before (object :: objects) ↔
    object.Storable bucket.settings.requireContentType ∧
      before.names.get? object.entry.nameKey = none ∧
      bucket.MayStore (before.withEntry object.entry) objects := by
  constructor
  · intro may
    obtain ⟨storable, rest⟩ := List.forall_mem_cons.1 may.storable
    obtain ⟨free, admits⟩ := may.admits.withEntry
    exact ⟨storable, free, rest, admits⟩
  · rintro ⟨storable, free, rest⟩
    refine ⟨List.forall_mem_cons.2 ⟨storable, rest.storable⟩, ?_⟩
    exact Contents.Admits.of_withName ⟨rest.admits.free, rest.admits.distinct⟩ free

/-- Whether objects may be stored does not depend on the write mode. -/
theorem mayStore_withMode {mode : WriteMode} :
    (bucket.withMode mode).MayStore before objects ↔ bucket.MayStore before objects :=
  ⟨fun may => ⟨may.storable, may.admits⟩, fun may => ⟨may.storable, may.admits⟩⟩

/-- The entries of objects that may be stored together, or why they may not. -/
def admission (bucket : Bucket) (contents : Contents) (objects : List Object) :
    Except StoreError (List Entry) := do
  contents.admitted (← bucket.prepareBatch objects)

theorem admission_of_unprepared {error : StoreError}
    (prepared : bucket.prepareBatch objects = .error error) :
    bucket.admission before objects = .error error := by
  rw [admission, prepared]
  rfl

/-- Objects whose batch is prepared are admitted unless the name of one of them is held. -/
theorem admission_of_prepared {entries : List Entry}
    (prepared : bucket.prepareBatch objects = .ok entries) :
    bucket.admission before objects = before.admitted entries := by
  rw [admission, prepared]
  rfl

/-- Objects are admitted exactly if they may be stored together. -/
theorem admission_eq_ok_iff {entries : List Entry} :
    bucket.admission before objects = .ok entries ↔
      bucket.MayStore before objects ∧ objects.map Object.entry = entries := by
  cases prepared : bucket.prepareBatch objects with
  | error error =>
      have refused : ¬ bucket.MayStore before objects := fun may => by
        have fine := prepareBatch_eq_ok_iff.2 ⟨may.storable, may.admits.distinct, rfl⟩
        simp [fine] at prepared
      simp [admission_of_unprepared prepared, refused]
  | ok ready =>
      obtain ⟨storable, distinct, rfl⟩ := prepareBatch_eq_ok_iff.1 prepared
      rw [admission_of_prepared prepared, Contents.admitted_eq_ok_iff distinct]
      exact and_congr_left fun _ => ⟨fun admits => ⟨storable, admits⟩, fun may => may.admits⟩

/-- Objects that may not be stored together are refused for some reason. -/
theorem exists_admission_error (refused : ¬ bucket.MayStore before objects) :
    ∃ error, bucket.admission before objects = .error error := by
  cases admitted : bucket.admission before objects with
  | error error => exact ⟨error, rfl⟩
  | ok entries => exact absurd (admission_eq_ok_iff.1 admitted).1 refused

/-- One object has no other to share its name with. -/
theorem admission_singleton (bucket : Bucket) (contents : Contents) (object : Object) :
    bucket.admission contents [object]
      = match Entry.prepare bucket.settings.requireContentType object with
        | .error cause => .error (.invalid cause)
        | .ok entry => contents.admitted [entry] := by
  cases prepared : Entry.prepare bucket.settings.requireContentType object with
  | error cause => exact admission_of_unprepared (by simp [prepareBatch, prepareAll, prepared])
  | ok entry =>
      have unrepeated : Entry.firstRepeated [] [entry] = none := rfl
      exact admission_of_prepared (by simp [prepareBatch, prepareAll, prepared, unrepeated])

/-! ## Storing in memory -/

/-- What writing an entry leads to on a calm engine in memory. -/
theorem leads_writeEntry_inMemory (mode : WriteMode) (entry : Entry) :
    Leads (.reliable .unrestricted) (writeEntry mode entry).run before fun result after =>
      match before.admitted [entry] with
      | .error error => result = .error error ∧ after = before
      | .ok _ => result = .ok () ∧ after = before.withEntry entry := by
  intro store hold start
  obtain ⟨events, rfl⟩ := hold.inMemory start
  rw [run_writeEntry, Contents.admitted, Contents.firstHeld, List.find?_cons]
  cases (before.names.get? entry.nameKey).isSome with
  | true => exact ⟨hold, rfl, rfl⟩
  | false => exact ⟨hold.replace _ _, rfl, rfl⟩

/-- What writing several entries leads to there. -/
theorem leads_writeEntries_inMemory (mode : WriteMode) {entries : List Entry}
    (distinct : (entries.map Entry.nameKey).Nodup) :
    Leads (.reliable .unrestricted) (writeEntries mode entries) before fun result after =>
      match before.admitted entries with
      | .error error => result = (0, .error error) ∧ after = before
      | .ok _ => result = (entries.length, .ok ()) ∧ after = before.withEntries entries := by
  intro store hold start
  obtain ⟨events, rfl⟩ := hold.inMemory start
  rw [run_writeEntries mode distinct, Contents.admitted]
  cases before.firstHeld entries with
  | some entry => exact ⟨hold, rfl, rfl⟩
  | none => exact ⟨hold.replace _ _, rfl, rfl⟩

/-- An object that is admitted is stored and comes back sealed. -/
theorem leads_create_inMemory (bucket : Bucket) (object : Object) :
    Leads (.reliable .unrestricted) (bucket.create object).run before fun result after =>
      match bucket.admission before [object] with
      | .error error => result = .error error ∧ after = before
      | .ok _ => result = .ok object.sealed ∧ after = before.withEntry object.entry := by
  rw [admission_singleton]
  refine Leads.andThen (Leads.ofExcept ?_)
  cases prepared : Entry.prepare bucket.settings.requireContentType object with
  | error cause => exact ⟨rfl, rfl⟩
  | ok entry =>
      obtain ⟨_, rfl⟩ := Entry.prepare_eq_ok_iff.1 prepared
      refine Leads.andThen ((leads_writeEntry_inMemory _ _).mono fun result between reached => ?_)
      dsimp only
      cases admitted : before.admitted [object.entry] with
      | error error =>
          rw [admitted] at reached
          obtain ⟨rfl, rfl⟩ := reached
          exact ⟨rfl, rfl⟩
      | ok entries =>
          rw [admitted] at reached
          obtain ⟨rfl, rfl⟩ := reached
          exact Leads.andThen (Leads.emitIf (Leads.give ⟨rfl, rfl⟩))

/-- Objects that are admitted are stored and come back sealed; otherwise they come back as they
were. -/
theorem leads_createBatch_inMemory (bucket : Bucket) (objects : List Object) :
    Leads (.reliable .unrestricted) (bucket.createBatch objects) before fun creation after =>
      match bucket.admission before objects with
      | .error error => creation = ⟨.error error, objects⟩ ∧ after = before
      | .ok _ => creation = ⟨.ok (objects.map Object.identity), objects.map Object.sealed⟩ ∧
          after = before.withEntries (objects.map Object.entry) := by
  unfold createBatch
  cases objects with
  | nil => exact Leads.pure ⟨rfl, rfl⟩
  | cons object rest =>
      generalize size : object :: rest = objects
      rw [if_neg (by simp [← size])]
      cases prepared : bucket.prepareBatch objects with
      | error error =>
          rw [admission_of_unprepared prepared]
          exact Leads.pure ⟨rfl, rfl⟩
      | ok entries =>
          rw [admission_of_prepared prepared]
          obtain ⟨_, distinct, rfl⟩ := prepareBatch_eq_ok_iff.1 prepared
          refine Leads.bind (leads_writeEntries_inMemory _ distinct) fun result between reached => ?_
          cases admitted : before.admitted (objects.map Object.entry) with
          | error error =>
              rw [admitted] at reached
              obtain ⟨rfl, rfl⟩ := reached
              exact Leads.pure ⟨rfl, rfl⟩
          | ok entries =>
              rw [admitted] at reached
              obtain ⟨rfl, rfl⟩ := reached
              have reported : Leads (.reliable .unrestricted)
                  (bucket.report (.batchCreated (objects.map Object.entry).length)).run
                  (before.withEntries (objects.map Object.entry))
                  fun _ after => after = before.withEntries (objects.map Object.entry) :=
                Leads.emitIf rfl
              refine Leads.bind reported ?_
              rintro _ _ rfl
              refine Leads.pure ⟨?_, rfl⟩
              simp [Object.entry, Function.comp_def]

/-- Objects are stored together exactly if they may be; otherwise nothing happens. -/
theorem leads_createBatch_mayStore (bucket : Bucket) (objects : List Object) :
    Leads (.reliable .unrestricted) (bucket.createBatch objects) before fun creation after =>
      (bucket.MayStore before objects ∧
        creation = ⟨.ok (objects.map Object.identity), objects.map Object.sealed⟩ ∧
        after = before.withEntries (objects.map Object.entry)) ∨
      (¬ bucket.MayStore before objects ∧
        ∃ error, creation = ⟨.error error, objects⟩ ∧ after = before) := by
  refine (leads_createBatch_inMemory bucket objects).mono fun creation after reached => ?_
  by_cases may : bucket.MayStore before objects
  · rw [admission_eq_ok_iff.2 ⟨may, rfl⟩] at reached
    exact .inl ⟨may, reached⟩
  · obtain ⟨error, admitted⟩ := exists_admission_error may
    rw [admitted] at reached
    exact .inr ⟨may, error, reached⟩

/-! ## One after the other -/

/-- Stores objects one after the other, up to the first that cannot be stored. -/
def createEach (bucket : Bucket) (objects : List Object) : Session (List Object) :=
  objects.mapM bucket.create

/-- One after the other, objects are all stored exactly if they may be stored together, and they
leave what they would leave together. -/
theorem leads_createEach_mayStore (bucket : Bucket) (objects : List Object) :
    Leads (.reliable .unrestricted) (bucket.createEach objects).run before fun result after =>
      (bucket.MayStore before objects ∧ result = .ok (objects.map Object.sealed) ∧
        after = before.withEntries (objects.map Object.entry)) ∨
      (¬ bucket.MayStore before objects ∧ ∃ error, result = .error error) := by
  induction objects generalizing before with
  | nil => exact Leads.give (.inl ⟨⟨by simp, ⟨by simp, .nil⟩⟩, rfl, rfl⟩)
  | cons object rest inductionHypothesis =>
      rw [createEach, List.mapM_cons]
      refine Leads.andThen ((leads_create_inMemory bucket object).mono fun result between made => ?_)
      cases admitted : bucket.admission before [object] with
      | error error =>
          rw [admitted] at made
          obtain ⟨rfl, rfl⟩ := made
          refine .inr ⟨fun may => ?_, error, rfl⟩
          obtain ⟨storable, free, _⟩ := mayStore_cons_iff.1 may
          have alone : bucket.MayStore between [object] :=
            mayStore_cons_iff.2 ⟨storable, free, ⟨by simp, ⟨by simp, .nil⟩⟩⟩
          simp [admission_eq_ok_iff.2 ⟨alone, rfl⟩] at admitted
      | ok entries =>
          rw [admitted] at made
          obtain ⟨rfl, rfl⟩ := made
          obtain ⟨storable, free, _⟩ := mayStore_cons_iff.1 (admission_eq_ok_iff.1 admitted).1
          refine Leads.follow inductionHypothesis ?_ ?_
          · rintro error after (⟨_, wrong, _⟩ | ⟨refused, _⟩)
            · exact absurd wrong (by simp)
            · exact .inr ⟨fun may => refused (mayStore_cons_iff.1 may).2.2, error, rfl⟩
          · rintro stored after (⟨may, same, rfl⟩ | ⟨_, _, wrong⟩)
            · obtain rfl := Except.ok.inj same
              exact Leads.give (.inl ⟨mayStore_cons_iff.2 ⟨storable, free, may⟩, rfl, rfl⟩)
            · exact absurd wrong (by simp)

/-- An atomic batch that fails leaves contents and objects as they were, whatever it fails for. -/
theorem unchanged_of_createBatch_error {store : Store} {error : StoreError}
    (failed : (((bucket.withMode .atomic).createBatch objects).run store).1.result
      = .error error) :
    (((bucket.withMode .atomic).createBatch objects).run store).2.contents = store.contents ∧
      (((bucket.withMode .atomic).createBatch objects).run store).1.objects = objects := by
  unfold createBatch at failed ⊢
  cases objects with
  | nil => exact ⟨rfl, rfl⟩
  | cons object rest =>
      generalize size : object :: rest = objects at failed ⊢
      rw [if_neg (by simp [← size])] at failed ⊢
      cases prepared : (bucket.withMode .atomic).prepareBatch objects with
      | error error => exact ⟨rfl, rfl⟩
      | ok entries =>
          rw [prepared] at failed
          dsimp only [withMode, writeEntries] at failed ⊢
          rw [StateT.run_bind, StateT.run_bind, run_commitEntries_eq] at failed ⊢
          cases committed :
              ((Session.commit (Batch.join (entries.map Entry.fullWrite))).run.run store).1 with
          | error error =>
              rw [committed] at failed
              exact ⟨Session.contents_of_commit_error committed, rfl⟩
          | ok =>
              rw [committed] at failed
              have done : Except.ok (entries.map Entry.identity) = Except.error error := failed
              exact absurd done (by simp)

/-- In memory, an atomic batch of objects is stored exactly if the objects could be stored one
after the other, in either mode. Then their identities come back in order, the contents are those
that the objects leave one after the other, and every object is sealed. On any engine, and
whatever it fails for, a failed batch leaves contents and objects as they were. -/
theorem createBatch_equals_createEach (bucket : Bucket) (mode : WriteMode) (contents : Contents)
    (events : List Event) (objects : List Object) :
    let together := fun store => ((bucket.withMode .atomic).createBatch objects).run store
    let apart := ((bucket.withMode mode).createEach objects).run.run { contents, events }
    ((∃ identities, (together { contents, events }).1.result = .ok identities) ↔
      ∃ stored, apart.1 = .ok stored) ∧
    (∀ stored, apart.1 = .ok stored →
      (together { contents, events }).1.result = .ok (objects.map Object.identity) ∧
        (together { contents, events }).1.objects = stored ∧
        stored = objects.map Object.sealed ∧
        (together { contents, events }).2.contents = apart.2.contents) ∧
    ∀ (store : Store) (error : StoreError), (together store).1.result = .error error →
      (together store).2.contents = store.contents ∧ (together store).1.objects = objects := by
  intro together apart
  have hold : (Circumstances.reliable .unrestricted).Hold { contents, events } :=
    Circumstances.hold_reliable { contents, events }
  have reached := (leads_createBatch_mayStore (bucket.withMode .atomic) objects _ hold rfl).2
  have followed := (leads_createEach_mayStore (bucket.withMode mode) objects _ hold rfl).2
  rw [mayStore_withMode] at reached followed
  refine and_assoc.1 ⟨?_, fun store error => unchanged_of_createBatch_error⟩
  rcases followed with ⟨may, stored, left⟩ | ⟨refused, error, stopped⟩
  · obtain ⟨_, created, atOnce⟩ := reached.resolve_right fun refused => refused.1 may
    have allStored : apart.1 = .ok (objects.map Object.sealed) := stored
    have allCreated : (together { contents, events }).1
        = ⟨.ok (objects.map Object.identity), objects.map Object.sealed⟩ := created
    rw [allStored, allCreated]
    refine ⟨by simp, fun others same => ?_⟩
    obtain rfl := Except.ok.inj same
    exact ⟨rfl, rfl, rfl, atOnce.trans left.symm⟩
  · obtain ⟨_, refusal, created, _⟩ := reached.resolve_left fun may => refused may.1
    have noneStored : apart.1 = .error error := stopped
    have noneCreated : (together { contents, events }).1 = ⟨.error refusal, objects⟩ := created
    rw [noneStored, noneCreated]
    simp

end Bucket

end Depot
