import Depot.Command.Execution
import Depot.Proofs.FileTree.Engine
import Depot.Proofs.Results

/-!
# Commands on an open bucket

Every command but the one that makes a bucket opens the bucket it is given and works on it in
sessions. An invocation reaches a bucket if its settings can be read, its path leads to the
directory, and the engine's files are there; then it is opened with nothing but the engine's work
done, and so it is again after every session. What sessions do to contents is all that commands do
to a bucket.
-/

namespace Depot.Command

variable {α : Type} {world after : World} {invocation : Invocation} {opened : Opened}
  {place : Place} {path : String} {contents : Contents} {settings : Settings}
  {result : Except Failure Opened}

/-! ## What tasks do -/

namespace Task

/-- A task that is said to be part of an activity does the same. -/
theorem run_within (activity : String) (task : Task α) (world : World) :
    (within activity task).run.run world
      = ((task.run.run world).1.mapError (Failure.within activity), (task.run.run world).2) :=
  rfl

theorem run_tree (world : World) : tree.run.run world = (.ok world.tree, world) := rfl

theorem run_modify (change : World → World) (world : World) :
    (modify change : Task Unit).run.run world = (.ok (), change world) :=
  rfl

theorem run_setTree (tree : FileTree) (world : World) :
    (setTree tree).run.run world = (.ok (), { world with tree }) :=
  rfl

theorem run_ofExcept {ε : Type} (failure : ε → Failure) (result : Except ε α) (world : World) :
    (ofExcept failure result).run.run world = (result.mapError failure, world) :=
  rfl

/-- A session with a store finds what the files hold and leaves what it makes of it. -/
theorem run_onStore (place : Place) (session : Session α) (world : World) :
    (onStore place session).run.run world
      = let store : Store :=
          { contents := world.tree.contentsAt place, keyRule := .pageBound, events := world.events }
        let outcome := session.run.run store
        (outcome.1.mapError Failure.ofStore,
          { world with
            tree := world.tree.keepContents place outcome.2.contents
            events := outcome.2.events }) :=
  rfl

end Task

/-! ## Settings -/

/-- The settings of an invocation, as the files tell them. -/
def Invocation.settingsIn (invocation : Invocation) (tree : FileTree) : Except Failure Settings :=
  let read : Except Failure Settings :=
    match invocation.settings with
    | none => .ok {}
    | some path =>
      ((settingsAt tree path).mapError Failure.ofStore).mapError (.within ("loading " ++ path))
  read.map fun settings =>
    { settings with
      baseDirectory := invocation.directory.getD settings.baseDirectory
      maintenance := { settings.maintenance with enabled := false } }

theorem Invocation.run_readSettings (invocation : Invocation) (world : World) :
    invocation.readSettings.run.run world = (invocation.settingsIn world.tree, world) := by
  unfold readSettings settingsIn
  cases invocation.settings with
  | none => rfl
  | some path =>
      dsimp only
      rw [run_bind, Task.run_tree]
      dsimp only
      rw [run_bind, Task.run_within, Task.run_ofExcept]
      cases settingsAt world.tree path with
      | error error => rfl
      | ok settings => rfl

/-- No maintenance is due. -/
theorem Invocation.enabled_of_settingsIn {tree : FileTree}
    (read : invocation.settingsIn tree = .ok settings) : settings.maintenance.enabled = false := by
  obtain ⟨given, _, rfl⟩ := map_eq_ok_iff.1 read
  rfl

/-- Settings that could be read are the same after an engine's work. -/
theorem Invocation.settingsIn_of_workedAt {tree later : FileTree}
    (worked : tree.WorkedAt place later) (read : invocation.settingsIn tree = .ok settings) :
    invocation.settingsIn later = .ok settings := by
  unfold settingsIn at read ⊢
  cases given : invocation.settings with
  | none =>
      rw [given] at read
      exact read
  | some path =>
      rw [given] at read
      dsimp only at read ⊢
      obtain ⟨settings, found, rfl⟩ := map_eq_ok_iff.1 read
      have found := mapError_eq_ok_iff.1 (mapError_eq_ok_iff.1 found)
      have still : settingsAt later path = .ok settings := by
        unfold settingsAt at found ⊢
        cases content : tree.read path with
        | error fault =>
            rw [content] at found
            exact absurd found (by simp)
        | ok content' =>
            rw [content] at found
            rw [worked.read content]
            exact found
      rw [still]
      rfl

/-! ## The bucket of an invocation -/

/-- Opens the bucket of an invocation. -/
def Invocation.openOwn (invocation : Invocation) : Task Opened := do
  openNamed (← invocation.readSettings) invocation.bucket

/-- What a command does with the bucket that is opened for it. -/
inductive Works : Command → (Opened → Task Report) → Prop where
  | put (storing : Storing) : Works (.put storing) (store · storing)
  | get (target : Target) (output : Option String) :
      Works (.get target output) (retrieve · target output)
  | query (choosing : Choosing) : Works (.query choosing) (select · choosing)
  | remove (target : Target) : Works (.remove target) (discard · target)
  | repair : Works .repair reconcile

/-- Every command but the one that makes a bucket works on one. -/
theorem exists_works {command : Command} (works : command ≠ .init) :
    ∃ work, Works command work := by
  cases command with
  | init => exact absurd rfl works
  | put storing => exact ⟨_, .put storing⟩
  | get target output => exact ⟨_, .get target output⟩
  | query choosing => exact ⟨_, .query choosing⟩
  | remove target => exact ⟨_, .remove target⟩
  | repair => exact ⟨_, .repair⟩

/-- To run an invocation is to open its bucket and to let the command work there. -/
theorem Works.run_eq {work : Opened → Task Report} (works : Works invocation.command work) :
    invocation.run = invocation.openOwn >>= work := by
  unfold Invocation.run Invocation.openOwn
  rw [bind_assoc]
  refine bind_congr fun settings => ?_
  generalize invocation.command = command at works
  cases works <;> rfl

/-- An invocation reaches a bucket that holds these contents: its settings can be read, its path
leads to the directory of the bucket, and the engine's files are there. -/
structure Invocation.Reaches (invocation : Invocation) (world : World) (opened : Opened)
    (contents : Contents) : Prop where
  settings : invocation.settingsIn world.tree = .ok opened.bucket.settings
  path : ∃ path, invocation.bucket = some path ∧ opened.bucket.path = some path ∧
    world.tree.locate path = .ok opened.place ∧
    FileTree.MayOpen opened.bucket.settings.engine path
  hosts : world.tree.Hosts opened.place contents

/-- Without maintenance a bucket is started at once. -/
theorem run_startAt (quiet : settings.maintenance.enabled = false) (path : String) (store : Store) :
    ∃ events, (Bucket.startAt settings path).run.run store
      = (.ok ⟨settings, some path⟩, { store with events }) := by
  unfold Bucket.startAt Bucket.start
  rw [quiet]
  exact ⟨_, rfl⟩

/-- To open a bucket is to open its engine and to start it on what the engine holds. -/
theorem run_openBucket (settings : Settings) (path : String) (world : World) :
    (openBucket settings path).run.run world
      = match world.tree.openEngine settings.engine path with
        | (tree, .error error) => (.error (.ofStore error), { world with tree })
        | (tree, .ok place) =>
          let outcome := (Task.onStore place (Bucket.startAt settings path)).run.run
            { world with tree }
          (outcome.1.map (⟨·, place⟩), outcome.2) := by
  unfold openBucket
  rw [run_bind, Task.run_tree]
  dsimp only
  rcases world.tree.openEngine settings.engine path with ⟨tree, error | place⟩
  · rfl
  · show (Task.onStore place (Bucket.startAt settings path) >>= fun bucket =>
      (Pure.pure ⟨bucket, place⟩ : Task Opened)).run.run { world with tree } = _
    rw [run_bind]
    dsimp only
    rcases (Task.onStore place (Bucket.startAt settings path)).run.run { world with tree } with
      ⟨failure | bucket, after⟩
    · rfl
    · rfl

/-- A bucket is started on a store, which stays as it is. -/
theorem exists_run_onStore_startAt (quiet : settings.maintenance.enabled = false)
    (hosts : world.tree.Hosts place contents) (path : String) :
    ∃ after, (Task.onStore place (Bucket.startAt settings path)).run.run world
        = (.ok ⟨settings, some path⟩, after) ∧
      after.tree.Hosts place contents ∧ world.tree.WorkedAt place after.tree := by
  obtain ⟨hostsAfter, worked⟩ := hosts.keepContents contents
  obtain ⟨events, started⟩ := run_startAt quiet path
    { contents, keyRule := .pageBound, events := world.events }
  refine ⟨{ world with tree := world.tree.keepContents place contents, events }, ?_, hostsAfter,
    worked⟩
  rw [Task.run_onStore, hosts.contentsAt_eq]
  dsimp only
  rw [started]
  rfl

/-- A bucket is opened in its directory, and nowhere else. -/
theorem run_openNamed (located : world.tree.locate path = .ok place) (settings : Settings) :
    (openNamed settings (some path)).run.run world
      = if world.tree.node? place = some .directory then
          (Task.within ("opening bucket " ++ path) (openBucket settings path)).run.run world
        else (.error (absentBucket path), world) := by
  unfold openNamed
  rw [run_bind, Task.run_tree]
  dsimp only
  have tells : world.tree.isDirectory path
      = decide (world.tree.node? place = some .directory) := by
    rw [FileTree.isDirectory, located]
  by_cases directory : world.tree.node? place = some .directory
  · rw [if_pos directory, tells.trans (decide_eq_true directory)]
    rfl
  · rw [if_neg directory, tells.trans (decide_eq_false directory)]
    rfl

/-- Opening a bucket does the engine's work at most and keeps what the bucket holds. Once it is
open, the invocation reaches it. -/
theorem Invocation.workedAt_openOwn (named : invocation.bucket = some path)
    (located : world.tree.locate path = .ok place)
    (ends : invocation.openOwn.run.run world = (result, after)) :
    world.tree.WorkedAt place after.tree ∧
      after.tree.contentsAt place = world.tree.contentsAt place ∧
      ∀ opened, result = .ok opened → opened.place = place ∧
        invocation.Reaches after opened (world.tree.contentsAt place) := by
  have unchanged : ∀ failure : Failure, world.tree.WorkedAt place world.tree ∧
      world.tree.contentsAt place = world.tree.contentsAt place ∧
      ∀ opened, Except.error failure = .ok opened → opened.place = place ∧
        invocation.Reaches world opened (world.tree.contentsAt place) :=
    fun failure => ⟨.refl _ _, rfl, fun _ wrong => absurd wrong (by simp)⟩
  rw [openOwn, run_bind, run_readSettings] at ends
  cases read : invocation.settingsIn world.tree with
  | error failure =>
      rw [read] at ends
      obtain ⟨rfl, rfl⟩ := Prod.mk.inj ends
      exact unchanged failure
  | ok settings =>
      rw [read] at ends
      dsimp only at ends
      rw [named, run_openNamed located] at ends
      by_cases directory : world.tree.node? place = some .directory
      · rw [if_pos directory, Task.run_within, run_openBucket] at ends
        obtain ⟨worked, kept, openedAt⟩ :=
          FileTree.workedAt_openEngine located directory settings.engine
        generalize world.tree.openEngine settings.engine path = opening at *
        rcases opening with ⟨tree, error | found⟩
        · obtain ⟨rfl, rfl⟩ := Prod.mk.inj ends
          exact ⟨worked, kept, fun _ wrong => absurd (mapError_eq_ok_iff.1 wrong) (by simp)⟩
        · obtain ⟨rfl, may, hosts⟩ := openedAt found rfl
          obtain ⟨started, run, hostsAfter, workedAfter⟩ :=
            @exists_run_onStore_startAt { world with tree } _ _ _
              (enabled_of_settingsIn read) hosts path
          dsimp only at ends
          rw [run] at ends
          obtain ⟨rfl, rfl⟩ := Prod.mk.inj ends
          have whole := worked.trans workedAfter
          refine ⟨whole, hostsAfter.contentsAt_eq, fun opened done => ?_⟩
          obtain rfl := Except.ok.inj done
          exact ⟨rfl, settingsIn_of_workedAt whole read,
            ⟨path, named, rfl, whole.ways.locate located, may⟩, hostsAfter⟩
      · rw [if_neg directory] at ends
        obtain ⟨rfl, rfl⟩ := Prod.mk.inj ends
        exact unchanged _

/-- A session with an open bucket is run on what it holds, which is all that it changes. -/
theorem exists_run_perform (hosts : world.tree.Hosts opened.place contents)
    (session : Bucket → Session α) :
    let store : Store := { contents, keyRule := .pageBound, events := world.events }
    let outcome := (session opened.bucket).run.run store
    ∃ after, (opened.perform session).run.run world
        = (outcome.1.mapError Failure.ofStore, after) ∧
      after.tree.Hosts opened.place outcome.2.contents ∧
      world.tree.WorkedAt opened.place after.tree := by
  intro store outcome
  refine ⟨{ world with
    tree := world.tree.keepContents opened.place outcome.2.contents
    events := outcome.2.events }, ?_, hosts.keepContents outcome.2.contents⟩
  rw [Opened.perform, Task.run_onStore, hosts.contentsAt_eq]

namespace Invocation.Reaches

/-- What is reached is reached still after an engine's work, whatever the bucket holds then. -/
theorem of_workedAt {kept : Contents} (reaches : invocation.Reaches world opened contents)
    (worked : world.tree.WorkedAt opened.place after.tree)
    (hosts : after.tree.Hosts opened.place kept) : invocation.Reaches after opened kept := by
  obtain ⟨path, named, own, located, may⟩ := reaches.path
  exact ⟨settingsIn_of_workedAt worked reaches.settings,
    ⟨path, named, own, worked.ways.locate located, may⟩, hosts⟩

/-- An invocation opens the bucket that it reaches, and reaches it still. -/
theorem openOwn (reaches : invocation.Reaches world opened contents) :
    ∃ after, invocation.openOwn.run.run world = (.ok opened, after) ∧
      after.tree.Hosts opened.place contents ∧ world.tree.WorkedAt opened.place after.tree := by
  obtain ⟨path, named, own, located, may⟩ := reaches.path
  obtain ⟨after, run, hosts, worked⟩ := exists_run_onStore_startAt
    (enabled_of_settingsIn reaches.settings) reaches.hosts path
  refine ⟨after, ?_, hosts, worked⟩
  rw [Invocation.openOwn, run_bind, run_readSettings, reaches.settings]
  dsimp only
  rw [named, run_openNamed located, if_pos reaches.hosts.directory, Task.run_within,
    run_openBucket, FileTree.openEngine_of_hosts located reaches.hosts may]
  dsimp only
  rw [run, ← own]
  rfl

end Invocation.Reaches

end Depot.Command
