import Depot.Proofs.Bucket.Spellings
import Depot.Proofs.Bucket.Streaming
import Depot.Proofs.Command.Opening
import Depot.Proofs.Consistency.Filtering
import Depot.Proofs.Runs.Atomic

/-!
# What commands do with an open bucket

Commands are put together from few pieces of work: an object is meant, looked at, stored,
deleted, or copied to a file. Every piece is told by what the bucket holds before, and leaves the
rest of the files alone. Only a copy touches another file, and it empties that file before it looks
for the object.
-/

namespace Depot.Command

open FileTree

variable {α : Type} {world after : World} {opened : Opened} {contents : Contents} {path : String}
  {file : Place} {identity : Uuid}

/-- The circumstances in which commands work. -/
abbrev onDisk : Circumstances := .reliable .pageBound

/-- What a look at an open bucket shows is given, and nothing changes. -/
theorem exists_run_look (hosts : world.tree.Hosts opened.place contents)
    (session : Bucket → Session α) {value : Except StoreError α}
    (shows : Leads onDisk (session opened.bucket).run contents (Shows onDisk contents value)) :
    ∃ after, (opened.perform session).run.run world = (value.mapError Failure.ofStore, after) ∧
      after.tree.Hosts opened.place contents ∧ world.tree.WorkedAt opened.place after.tree := by
  let store : Store := { contents, keyRule := .pageBound, events := world.events }
  have shown : ((session opened.bucket).run.run store).1 = value :=
    Leads.value_of_calm rfl shows
  have kept : ((session opened.bucket).run.run store).2.contents = contents :=
    (@Leads.outcome_of_calm _ store _ _ rfl shows).1.1
  obtain ⟨after, run, hostsAfter, worked⟩ := exists_run_perform hosts session
  exact ⟨after, shown ▸ run, kept ▸ hostsAfter, worked⟩

/-- The identity of the object that is meant, as contents tell it. -/
def Target.identityIn (contents : Contents) : Target → Except Failure Uuid
  | .identity text => (Uuid.ofText text).mapError Failure.ofData
  | .named name owner =>
    ((contents.objectNamed name owner).map Object.identity).mapError Failure.ofStore

/-- The identity and the metadata of the object that is meant, as contents tell them. -/
def Target.recordIn (contents : Contents) (target : Target) : Except Failure (Uuid × Metadata) :=
  (target.identityIn contents).bind fun identity =>
    ((contents.metadataOf identity).mapError Failure.ofStore).map (identity, ·)

/-- What is meant is told by the contents. -/
theorem exists_run_resolve (hosts : world.tree.Hosts opened.place contents) (target : Target) :
    ∃ after, (resolve opened target).run.run world = (target.identityIn contents, after) ∧
      after.tree.Hosts opened.place contents ∧ world.tree.WorkedAt opened.place after.tree := by
  cases target with
  | identity text => exact ⟨world, rfl, hosts, .refl _ _⟩
  | named name owner =>
      obtain ⟨after, run, hostsAfter, worked⟩ := exists_run_look hosts
        (fun bucket => bucket.fetchNamed name owner) (Bucket.leads_fetchNamed name owner)
      refine ⟨after, ?_, hostsAfter, worked⟩
      rw [resolve, run_bind, run, Target.identityIn]
      cases contents.objectNamed name owner with
      | error error => rfl
      | ok object => rfl

/-- An object is created if it is admitted. -/
theorem exists_run_create (hosts : world.tree.Hosts opened.place contents) (object : Object) :
    ∃ after, world.tree.WorkedAt opened.place after.tree ∧
      match opened.bucket.admission contents [object] with
      | .error error =>
        (opened.perform fun bucket => bucket.create object).run.run world
            = (.error (.ofStore error), after) ∧
          after.tree.Hosts opened.place contents
      | .ok _ =>
        (opened.perform fun bucket => bucket.create object).run.run world
            = (.ok object.sealed, after) ∧
          after.tree.Hosts opened.place (contents.withEntry object.entry) := by
  obtain ⟨after, run, hostsAfter, worked⟩ :=
    exists_run_perform hosts fun bucket => bucket.create object
  have created := @Bucket.create_of_calm
    { contents, keyRule := .pageBound, events := world.events } rfl
    KeyRule.takesStorable_pageBound opened.bucket object
  refine ⟨after, worked, ?_⟩
  dsimp only at created run hostsAfter
  cases admitted : opened.bucket.admission contents [object] with
  | error error =>
      rw [admitted] at created
      rw [created.1] at run
      rw [created.2] at hostsAfter
      exact ⟨run, hostsAfter⟩
  | ok entries =>
      rw [admitted] at created
      rw [created.1] at run
      rw [created.2] at hostsAfter
      exact ⟨run, hostsAfter⟩

/-- An object is deleted if its metadata is there. -/
theorem exists_run_delete (hosts : world.tree.Hosts opened.place contents) (identity : Uuid) :
    ∃ after, world.tree.WorkedAt opened.place after.tree ∧
      match contents.metadataOf identity with
      | .error error =>
        (opened.perform fun bucket => bucket.delete identity).run.run world
            = (.error (.ofStore error), after) ∧
          after.tree.Hosts opened.place contents
      | .ok metadata =>
        (opened.perform fun bucket => bucket.delete identity).run.run world = (.ok (), after) ∧
          after.tree.Hosts opened.place (contents.without identity metadata) := by
  obtain ⟨after, run, hostsAfter, worked⟩ :=
    exists_run_perform hosts fun bucket => bucket.delete identity
  have deleted := @Bucket.delete_of_calm
    { contents, keyRule := .pageBound, events := world.events } opened.bucket rfl identity
  refine ⟨after, worked, ?_⟩
  dsimp only at deleted run hostsAfter
  cases found : contents.metadataOf identity with
  | error error =>
      rw [found] at deleted
      rw [deleted.1] at run
      rw [deleted.2] at hostsAfter
      exact ⟨run, hostsAfter⟩
  | ok metadata =>
      rw [found] at deleted
      rw [deleted.1] at run
      rw [deleted.2] at hostsAfter
      exact ⟨run, hostsAfter⟩

/-! ## Copies -/

/-- Nothing is copied to a file that cannot be written. -/
theorem run_copy_of_error {fault : FileFault} (refused : world.tree.create path = .error fault) :
    (copy opened identity path).run.run world
      = (.error (.within ("creating " ++ path) (.ofFile fault)), world) := by
  unfold copy
  rw [run_bind, Task.run_tree]
  dsimp only
  rw [refused]
  rfl

/-- What is delivered into a sink that takes everything is given, and nothing changes. -/
theorem exists_run_stream (hosts : world.tree.Hosts opened.place contents) (identity : Uuid) :
    ∃ after, (opened.perform fun bucket =>
          ExceptT.mk (Except.ok <$> bucket.stream identity .all)).run.run world
        = (.ok (contents.delivered identity .all), after) ∧
      after.tree.Hosts opened.place contents ∧ world.tree.WorkedAt opened.place after.tree := by
  obtain ⟨after, run, hostsAfter, worked⟩ := exists_run_perform hosts fun bucket =>
    (ExceptT.mk (Except.ok <$> bucket.stream identity .all) : Session Bucket.Delivery)
  obtain ⟨events, streamed⟩ := @Bucket.exists_run_stream
    { contents, keyRule := .pageBound, events := world.events } rfl opened.bucket identity .all
  have told : (Except.ok (ε := StoreError) <$> opened.bucket.stream identity .all).run
        { contents, keyRule := .pageBound, events := world.events }
      = (.ok (contents.delivered identity .all),
          { contents, keyRule := .pageBound, events }) := by
    rw [StateT.run_map, streamed]
    rfl
  have whole : (ExceptT.mk (Except.ok (ε := StoreError) <$>
        opened.bucket.stream identity .all)).run.run
        { contents, keyRule := .pageBound, events := world.events }
      = (.ok (contents.delivered identity .all),
          { contents, keyRule := .pageBound, events }) := told
  rw [whole] at run
  rw [whole] at hostsAfter
  exact ⟨after, run, hostsAfter, worked⟩

/-- What is delivered is written to the file, and everything else stays as it is. -/
theorem exists_run_copy (hosts : world.tree.Hosts opened.place contents)
    (located : world.tree.locateFile path = .ok file)
    (apart : file ≠ opened.place ++ [engineFile]) (identity : Uuid) :
    let delivery := contents.delivered identity .all
    ∃ after, (copy opened identity path).run.run world
        = ((delivery.result.mapError Failure.ofStore).map (Report.copied identity · path), after) ∧
      after.tree.Hosts opened.place contents ∧
      after.tree.node? file = some (.file delivery.received) ∧
      ∀ sought, sought ≠ file → sought ≠ opened.place ++ [lockFile] →
        sought ≠ opened.place ++ [engineFile] →
        after.tree.node? sought = world.tree.node? sought := by
  intro delivery
  have created : world.tree.create path = .ok (file, world.tree.put file (.file [])) :=
    create_eq_ok_iff.2 ⟨located, rfl⟩
  have writable := (locateFile_eq_ok_iff.1 located).2.2
  have inside := ne_nil_of_locateFile located
  obtain ⟨between, run, hostsBetween, worked⟩ := @exists_run_stream
    { world with tree := world.tree.put file (.file []) } opened contents
    (hosts.put [] writable apart) identity
  have stillWritable : between.tree.node? file ≠ some .directory := by
    rw [ne_eq, worked.ways.directories, node?_put _ inside, if_pos rfl]
    simp
  refine ⟨{ between with tree := between.tree.put file (.file delivery.received) }, ?_,
    hostsBetween.put _ stillWritable apart, ?_, fun sought other lock engine => ?_⟩
  · rw [copy, run_bind, Task.run_tree]
    dsimp only
    rw [created, run_bind, Task.run_within, Task.run_ofExcept]
    dsimp only [Except.mapError]
    rw [run_bind, Task.run_setTree]
    dsimp only
    rw [run_bind, run]
    dsimp only
    rw [run_bind, Task.run_modify]
    dsimp only
    rw [run_bind, Task.run_ofExcept]
    cases delivery.result with
    | error error => rfl
    | ok size => rfl
  · rw [node?_put _ inside, if_pos rfl]
  · rw [node?_put _ inside, if_neg other, worked.beside _ lock engine, node?_put _ inside,
      if_neg other]

/-! ## Whole commands -/

/-- What is set before the content of an object is added: the kind of content, if it is given, and
then all other values in their order. -/
def Storing.values (storing : Storing) : List (String × String) :=
  storing.contentType.toList.map (Metadata.Key.contentType.text, ·) ++ storing.metadata

/-- The object that is stored, made with what is random and of the content of the file. -/
def Storing.objectFrom (storing : Storing) (source : Uuid.Source) (now : Instant)
    (content : Bytes) : Except DataError Object := do
  let object ← (Object.create source now storing.name storing.owner).1
  let object ← storing.values.foldlM
    (fun object (entry : String × String) => object.setValue entry.1 entry.2) object
  let (_, object) ← object.append content
  return object

theorem run_compose (storing : Storing) (content : Bytes) (world : World) :
    (compose storing content).run.run world
      = ((storing.objectFrom world.source world.now content).mapError Failure.ofData,
          { world with
            source := (Object.create world.source world.now storing.name storing.owner).2 }) :=
  rfl

/-- A file is stored if it can be read, makes an object and the object is admitted. Otherwise
nothing is stored. -/
theorem store_ends {storing : Storing} {result : Except Failure Report}
    (hosts : world.tree.Hosts opened.place contents)
    (ends : (store opened storing).run.run world = (result, after)) :
    world.tree.WorkedAt opened.place after.tree ∧
      match result with
      | .error _ => after.tree.Hosts opened.place contents
      | .ok report => ∃ content object entries, world.tree.read storing.file = .ok content ∧
          storing.objectFrom world.source world.now content = .ok object ∧
          opened.bucket.admission contents [object] = .ok entries ∧
          report = .stored object.sealed ∧
          after.tree.Hosts opened.place (contents.withEntry object.entry) := by
  rw [store, run_bind, Task.run_tree] at ends
  dsimp only at ends
  rw [run_bind, Task.run_within, Task.run_ofExcept] at ends
  cases read : world.tree.read storing.file with
  | error fault =>
      rw [read] at ends
      obtain ⟨rfl, rfl⟩ := Prod.mk.inj ends
      exact ⟨.refl _ _, hosts⟩
  | ok content =>
      rw [read] at ends
      dsimp only [Except.mapError] at ends
      rw [run_bind, run_compose] at ends
      cases made : storing.objectFrom world.source world.now content with
      | error cause =>
          rw [made] at ends
          obtain ⟨rfl, rfl⟩ := Prod.mk.inj ends
          exact ⟨.refl _ _, hosts⟩
      | ok object =>
          rw [made] at ends
          dsimp only [Except.mapError] at ends
          rw [run_bind] at ends
          obtain ⟨between, worked, created⟩ := @exists_run_create
            { world with
              source := (Object.create world.source world.now storing.name storing.owner).2 }
            opened contents hosts object
          cases admitted : opened.bucket.admission contents [object] with
          | error error =>
              rw [admitted] at created
              rw [created.1] at ends
              obtain ⟨rfl, rfl⟩ := Prod.mk.inj ends
              exact ⟨worked, created.2⟩
          | ok entries =>
              rw [admitted] at created
              rw [created.1] at ends
              obtain ⟨rfl, rfl⟩ := Prod.mk.inj ends
              exact ⟨worked, content, object, entries, rfl, made, admitted, rfl, created.2⟩

/-- An object is deleted if it is meant and its metadata is there. -/
theorem exists_run_discard (hosts : world.tree.Hosts opened.place contents) (target : Target) :
    ∃ after, world.tree.WorkedAt opened.place after.tree ∧
      match target.recordIn contents with
      | .error failure =>
        (discard opened target).run.run world = (.error failure, after) ∧
          after.tree.Hosts opened.place contents
      | .ok (identity, metadata) =>
        (discard opened target).run.run world = (.ok (.deleted identity), after) ∧
          after.tree.Hosts opened.place (contents.without identity metadata) := by
  obtain ⟨between, resolved, hostsBetween, workedBetween⟩ := exists_run_resolve hosts target
  unfold Target.recordIn
  cases meant : target.identityIn contents with
  | error failure =>
      refine ⟨between, workedBetween, ?_, hostsBetween⟩
      rw [discard, run_bind, resolved, meant]
  | ok identity =>
      obtain ⟨after, worked, deleted⟩ := exists_run_delete hostsBetween identity
      refine ⟨after, workedBetween.trans worked, ?_⟩
      rw [discard, run_bind, resolved, meant]
      dsimp only [Except.bind]
      rw [run_bind]
      cases found : contents.metadataOf identity with
      | error error =>
          rw [found] at deleted
          rw [deleted.1]
          exact ⟨rfl, deleted.2⟩
      | ok metadata =>
          rw [found] at deleted
          rw [deleted.1]
          exact ⟨rfl, deleted.2⟩

/-- An object that is not meant is neither shown nor copied. -/
theorem exists_run_retrieve_of_error {target : Target} {failure : Failure}
    (hosts : world.tree.Hosts opened.place contents)
    (unmeant : target.identityIn contents = .error failure) (output : Option String) :
    ∃ after, (retrieve opened target output).run.run world = (.error failure, after) ∧
      after.tree.Hosts opened.place contents ∧ world.tree.WorkedAt opened.place after.tree := by
  obtain ⟨after, resolved, hostsAfter, worked⟩ := exists_run_resolve hosts target
  refine ⟨after, ?_, hostsAfter, worked⟩
  rw [retrieve, run_bind, resolved, unmeant]

/-- An object that is meant is shown if it is there. -/
theorem exists_run_retrieve_shown {target : Target}
    (hosts : world.tree.Hosts opened.place contents)
    (meant : target.identityIn contents = .ok identity) :
    ∃ after, (retrieve opened target none).run.run world
        = (((contents.objectOf identity).mapError Failure.ofStore).map Report.shown, after) ∧
      after.tree.Hosts opened.place contents ∧ world.tree.WorkedAt opened.place after.tree := by
  obtain ⟨between, resolved, hostsBetween, workedBetween⟩ := exists_run_resolve hosts target
  obtain ⟨after, fetched, hostsAfter, worked⟩ := exists_run_look hostsBetween
    (fun bucket => bucket.fetch identity) (Bucket.leads_fetch identity)
  refine ⟨after, ?_, hostsAfter, workedBetween.trans worked⟩
  rw [retrieve, run_bind, resolved, meant]
  dsimp only
  rw [run_bind, fetched]
  cases contents.objectOf identity with
  | error error => rfl
  | ok object => rfl

/-- An object that is meant is not copied to a file that cannot be written. -/
theorem exists_run_retrieve_unwritable {target : Target} {fault : FileFault}
    (hosts : world.tree.Hosts opened.place contents)
    (meant : target.identityIn contents = .ok identity)
    (refused : world.tree.locateFile path = .error fault) :
    ∃ failure after, (retrieve opened target (some path)).run.run world = (.error failure, after) ∧
      after.tree.Hosts opened.place contents ∧ world.tree.WorkedAt opened.place after.tree := by
  obtain ⟨after, resolved, hostsAfter, worked⟩ := exists_run_resolve hosts target
  have unwritable : ∃ fault, after.tree.create path = .error fault := by
    cases created : after.tree.create path with
    | error fault => exact ⟨fault, rfl⟩
    | ok made =>
        have located := (create_eq_ok_iff.1 created).1
        exact absurd (refused.symm.trans (worked.ways.locateFile_eq_ok_iff.1 located)) (by simp)
  obtain ⟨cause, unwritable⟩ := unwritable
  have run := @run_copy_of_error _ opened _ identity _ unwritable
  refine ⟨.within ("creating " ++ path) (.ofFile cause), after, ?_, hostsAfter, worked⟩
  rw [retrieve, run_bind, resolved, meant]
  exact run

/-- What is delivered of an object that is meant is written to the file, and everything else stays
as it is. -/
theorem exists_run_retrieve_copied {target : Target}
    (hosts : world.tree.Hosts opened.place contents)
    (meant : target.identityIn contents = .ok identity)
    (located : world.tree.locateFile path = .ok file)
    (apart : file ≠ opened.place ++ [engineFile]) :
    let delivery := contents.delivered identity .all
    ∃ after, (retrieve opened target (some path)).run.run world
        = ((delivery.result.mapError Failure.ofStore).map (Report.copied identity · path), after) ∧
      after.tree.Hosts opened.place contents ∧
      after.tree.node? file = some (.file delivery.received) ∧
      ∀ sought, sought ≠ file → sought ≠ opened.place ++ [lockFile] →
        sought ≠ opened.place ++ [engineFile] →
        after.tree.node? sought = world.tree.node? sought := by
  obtain ⟨between, resolved, hostsBetween, worked⟩ := exists_run_resolve hosts target
  obtain ⟨after, copied, hostsAfter, written, beside⟩ := exists_run_copy hostsBetween
    (worked.ways.locateFile_eq_ok_iff.2 located) apart identity
  refine ⟨after, ?_, hostsAfter, written, fun sought other lock engine => ?_⟩
  · rw [retrieve, run_bind, resolved, meant]
    exact copied
  · exact (beside sought other lock engine).trans (worked.beside sought lock engine)

/-- An object of which there is no metadata is neither shown nor copied. -/
theorem exists_run_retrieve_unrecorded {target : Target} {failure : Failure}
    {output : Option String} (hosts : world.tree.Hosts opened.place contents)
    (unrecorded : target.recordIn contents = .error failure)
    (writable : ∀ path, output = some path →
      ∃ file, world.tree.locateFile path = .ok file ∧ file ≠ opened.place ++ [engineFile]) :
    ((retrieve opened target output).run.run world).1 = .error failure := by
  unfold Target.recordIn at unrecorded
  cases meant : target.identityIn contents with
  | error cause =>
      rw [meant] at unrecorded
      obtain rfl := Except.error.inj unrecorded
      obtain ⟨_, run, _⟩ := exists_run_retrieve_of_error hosts meant output
      exact congrArg Prod.fst run
  | ok identity =>
      rw [meant] at unrecorded
      cases found : contents.metadataOf identity with
      | ok metadata =>
          rw [Except.bind, found] at unrecorded
          exact absurd unrecorded (by simp [Except.mapError, Except.map])
      | error error =>
          rw [Except.bind, found] at unrecorded
          obtain rfl := Except.error.inj unrecorded
          cases output with
          | none =>
              obtain ⟨_, run, _⟩ := exists_run_retrieve_shown hosts meant
              rw [Contents.objectOf_of_metadataOf_error found] at run
              exact congrArg Prod.fst run
          | some path =>
              obtain ⟨file, located, apart⟩ := writable path rfl
              obtain ⟨_, run, _⟩ := exists_run_retrieve_copied hosts meant located apart
              rw [Contents.delivered_of_metadataOf_error found] at run
              exact congrArg Prod.fst run

/-- Consistent contents need no reconciliation. -/
theorem exists_run_reconcile (consistent : contents.Consistent)
    (hosts : world.tree.Hosts opened.place contents) :
    ∃ after, (reconcile opened).run.run world = (.ok (.reconciled {}), after) ∧
      after.tree.Hosts opened.place contents ∧ world.tree.WorkedAt opened.place after.tree := by
  have nothing : Leads onDisk opened.bucket.reconcile.run contents
      (Shows onDisk contents (.ok {})) :=
    consistent.leads_reconcile.mono fun _ _ done => ⟨done.2, .inl done.1⟩
  have flushing : Leads onDisk opened.bucket.flush.run contents (Shows onDisk contents (.ok ())) :=
    Leads.flush Shows.refused (Shows.of_eq _)
  obtain ⟨between, reconciled, hostsBetween, workedBetween⟩ :=
    exists_run_look hosts Bucket.reconcile nothing
  obtain ⟨after, flushed, hostsAfter, worked⟩ :=
    exists_run_look hostsBetween Bucket.flush flushing
  refine ⟨after, ?_, hostsAfter, workedBetween.trans worked⟩
  rw [reconcile, run_bind, reconciled]
  dsimp only [Except.mapError]
  rw [run_bind, flushed]
  rfl

/-- On consistent contents a selection is run if it is valid. Otherwise nothing is done. -/
theorem exists_run_select (consistent : contents.Consistent)
    (hosts : world.tree.Hosts opened.place contents) (choosing : Choosing) :
    ∃ after, world.tree.WorkedAt opened.place after.tree ∧
      match choosing.selection.validate with
      | .error cause =>
        (select opened choosing).run.run world = (.error (.ofStore (.invalid cause)), after) ∧
          after.tree.Hosts opened.place contents
      | .ok () => ∃ report, (select opened choosing).run.run world = (.ok report, after) := by
  obtain ⟨after, run, hostsAfter, worked⟩ :=
    exists_run_perform hosts fun bucket => bucket.run choosing.selection
  refine ⟨after, worked, ?_⟩
  cases valid : choosing.selection.validate with
  | error cause =>
      rw [Bucket.run_of_invalid valid] at run hostsAfter
      refine ⟨?_, hostsAfter⟩
      rw [select, run_bind, run]
      rfl
  | ok =>
      obtain ⟨objects, _, filters, _⟩ := @Bucket.exists_filters opened.bucket _
        { contents, keyRule := .pageBound, events := world.events } valid rfl consistent
      rw [filters.served] at run
      cases purpose : choosing.selection.purpose with
      | fetch =>
          rw [purpose] at run
          exact ⟨.fetched objects, by rw [select, run_bind, run]; rfl⟩
      | delete =>
          rw [purpose] at run
          exact ⟨.deletedMatches objects.length, by rw [select, run_bind, run]; rfl⟩

end Depot.Command
