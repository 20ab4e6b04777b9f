import Depot.Proofs.Command.Working

/-!
# Commands that fail

A command that fails leaves the bucket and all other files as they are, with one exception. An
object that is to be copied is looked up before the file is emptied if it is meant by its name, but
not if it is meant by its identity. So a copy of an object that is not there takes the content of
its file in the one case and fails without a trace in the other.
-/

namespace Depot

namespace Contents

variable {contents : Contents} {identity : Uuid} {name owner : String} {object : Object}

/-- In consistent contents, there is content for every record. -/
theorem Consistent.exists_offers {record : Bytes} (consistent : contents.Consistent)
    (recorded : contents.records.get? identity.key = some record) :
    ∃ content, contents.Offers identity content := by
  obtain ⟨name, owner, metadata, read, _⟩ :=
    consistent.recorded.recordedAt identity record recorded
  obtain ⟨content, holds⟩ :=
    consistent.exists_holds (metadataOf_eq_ok_iff.2 ⟨record, recorded, read⟩)
  exact ⟨content, ⟨record, metadata, recorded, read⟩, holds.payload⟩

/-- There is a record for every object that a name leads to. -/
theorem Consistent.exists_record_of_objectNamed (consistent : contents.Consistent)
    (found : contents.objectNamed name owner = .ok object) :
    ∃ record, contents.records.get? object.identity.key = some record := by
  obtain ⟨identity, _, found⟩ := objectNamed_eq_ok_iff.1 found
  obtain ⟨rfl, ⟨record, recorded, _⟩, _⟩ :=
    (consistent.recorded.recordedAt identity).objectOf_eq_ok_iff.1 found
  exact ⟨record, recorded⟩

/-- Without a record nothing is delivered, and it is the only reason where contents are
consistent. -/
theorem Consistent.missing_of_undelivered (consistent : contents.Consistent)
    (undelivered : ∀ size, (contents.delivered identity .all).result ≠ .ok size) :
    contents.records.get? identity.key = none := by
  refine Option.eq_none_iff_forall_ne_some.2 fun record recorded => ?_
  obtain ⟨content, offers⟩ := consistent.exists_offers recorded
  refine undelivered content.length ?_
  rw [delivered_of_offers offers, Sink.deliver_of_takesAll Sink.takesAll_all]

end Contents

namespace Command

open FileTree

variable {world after : World} {opened : Opened} {place file : Place} {contents : Contents}
  {command : Command} {work : Opened → Task Report} {failure : Failure} {path : String}

/-- A command empties a file in vain: it is to copy an object there that it means by an identity,
and there is no record of the identity. -/
def EmptiesInVain (tree : FileTree) (contents : Contents) (command : Command) (file : Place) :
    Prop :=
  ∃ text identity path, command = .get (.identity text) (some path) ∧
    Uuid.ofText text = .ok identity ∧ contents.records.get? identity.key = none ∧
    tree.locateFile path = .ok file

/-- What a failed command leaves: the bucket holds what it held, a file that was emptied in vain is
empty, and every other file is as it was. -/
structure LeavesIntact (tree : FileTree) (place : Place) (contents : Contents) (command : Command)
    (after : FileTree) : Prop where
  hosts : after.Hosts place contents
  emptied : ∀ file, command.EmptiesInVain tree contents file → after.node? file = some (.file [])
  beside : ∀ sought, sought ≠ place ++ [lockFile] → sought ≠ place ++ [engineFile] →
    ¬ command.EmptiesInVain tree contents sought → after.node? sought = tree.node? sought

/-- Nothing is emptied where only the engine has worked. -/
theorem leavesIntact_of_run {task : Task Report} {left : World} {result : Except Failure Report}
    (run : task.run.run world = (result, left)) (hosts : left.tree.Hosts place contents)
    (worked : world.tree.WorkedAt place left.tree)
    (spares : ∀ file, ¬ command.EmptiesInVain world.tree contents file)
    (failed : task.run.run world = (.error failure, after)) :
    command.LeavesIntact world.tree place contents after.tree := by
  obtain rfl : left = after := congrArg Prod.snd (run.symm.trans failed)
  exact ⟨hosts, fun file empties => absurd empties (spares file),
    fun sought lock engine _ => worked.beside sought lock engine⟩

/-- What has run to its end has not failed. -/
theorem not_failed_of_run {task : Task Report} {left : World} {report : Report}
    (run : task.run.run world = (.ok report, left)) :
    task.run.run world ≠ (.error failure, after) :=
  fun failed => absurd (congrArg Prod.fst (run.symm.trans failed)) (by simp)

/-- A copy fails if its object is not meant, if its file cannot be written, or if an object that is
meant by its identity is not there. Only then the file is emptied. -/
theorem leavesIntact_of_copy {target : Target} (consistent : contents.Consistent)
    (hosts : world.tree.Hosts opened.place contents)
    (apart : world.tree.locateFile path ≠ .ok (opened.place ++ [engineFile]))
    (failed : (retrieve opened target (some path)).run.run world = (.error failure, after)) :
    (Command.get target (some path)).LeavesIntact world.tree opened.place contents
      after.tree := by
  cases meant : target.identityIn contents with
  | error cause =>
      obtain ⟨left, run, hostsLeft, worked⟩ :=
        exists_run_retrieve_of_error hosts meant (some path)
      refine leavesIntact_of_run run hostsLeft worked ?_ failed
      rintro file ⟨text, identity, _, same, read, _⟩
      obtain ⟨rfl, _⟩ := Command.get.inj same
      rw [Target.identityIn, read] at meant
      exact absurd meant (by simp [Except.mapError])
  | ok identity =>
      cases located : world.tree.locateFile path with
      | error fault =>
          obtain ⟨_, left, run, hostsLeft, worked⟩ :=
            exists_run_retrieve_unwritable hosts meant located
          refine leavesIntact_of_run run hostsLeft worked ?_ failed
          rintro file ⟨_, _, _, same, _, _, written⟩
          obtain rfl := Option.some.inj (Command.get.inj same).2
          exact absurd (located.symm.trans written) (by simp)
      | ok file =>
          have elsewhere : file ≠ opened.place ++ [engineFile] := fun same =>
            apart (located.trans (congrArg Except.ok same))
          obtain ⟨left, run, hostsLeft, written, beside⟩ :=
            exists_run_retrieve_copied hosts meant located elsewhere
          obtain ⟨refused, rfl⟩ := Prod.mk.inj (run.symm.trans failed)
          have missing := consistent.missing_of_undelivered fun size (done : _ = _) => by
            rw [done] at refused
            exact absurd refused (by simp [Except.mapError, Except.map])
          rw [Contents.delivered_of_metadataOf_error
            (Contents.metadataOf_of_missing missing)] at written
          have empties :
              (Command.get target (some path)).EmptiesInVain world.tree contents file := by
            cases target with
            | identity text => exact ⟨text, identity, path, rfl, mapError_eq_ok_iff.1 meant,
                missing, located⟩
            | named name owner =>
                obtain ⟨object, found, rfl⟩ := map_eq_ok_iff.1 (mapError_eq_ok_iff.1 meant)
                obtain ⟨record, recorded⟩ := consistent.exists_record_of_objectNamed found
                exact absurd (recorded.symm.trans missing) (by simp)
          refine ⟨hostsLeft, fun other othersEmpties => ?_, fun sought lock engine spared => ?_⟩
          · obtain ⟨_, _, _, same, _, _, otherLocated⟩ := othersEmpties
            obtain rfl := Option.some.inj (Command.get.inj same).2
            obtain rfl := Except.ok.inj (located.symm.trans otherLocated)
            exact written
          · refine beside sought ?_ lock engine
            rintro rfl
            exact spared empties

/-- A command that fails on an open bucket leaves everything intact. -/
theorem Works.leavesIntact (works : Works command work) (consistent : contents.Consistent)
    (hosts : world.tree.Hosts opened.place contents)
    (apart : ∀ target path, command = .get target (some path) →
      world.tree.locateFile path ≠ .ok (opened.place ++ [engineFile]))
    (failed : (work opened).run.run world = (.error failure, after)) :
    command.LeavesIntact world.tree opened.place contents after.tree := by
  cases works with
  | put storing =>
      obtain ⟨worked, hostsAfter⟩ := store_ends hosts failed
      exact leavesIntact_of_run failed hostsAfter worked (by simp [EmptiesInVain]) failed
  | get target output =>
      cases output with
      | some path => exact leavesIntact_of_copy consistent hosts (apart target path rfl) failed
      | none =>
          cases meant : target.identityIn contents with
          | error cause =>
              obtain ⟨left, run, hostsLeft, worked⟩ :=
                exists_run_retrieve_of_error hosts meant none
              exact leavesIntact_of_run run hostsLeft worked (by simp [EmptiesInVain]) failed
          | ok identity =>
              obtain ⟨left, run, hostsLeft, worked⟩ := exists_run_retrieve_shown hosts meant
              exact leavesIntact_of_run run hostsLeft worked (by simp [EmptiesInVain]) failed
  | query choosing =>
      obtain ⟨left, worked, done⟩ := exists_run_select consistent hosts choosing
      cases valid : choosing.selection.validate with
      | error cause =>
          rw [valid] at done
          exact leavesIntact_of_run done.1 done.2 worked (by simp [EmptiesInVain]) failed
      | ok =>
          rw [valid] at done
          obtain ⟨report, run⟩ := done
          exact absurd failed (not_failed_of_run run)
  | remove target =>
      obtain ⟨left, worked, done⟩ := exists_run_discard hosts target
      cases found : target.recordIn contents with
      | error cause =>
          rw [found] at done
          exact leavesIntact_of_run done.1 done.2 worked (by simp [EmptiesInVain]) failed
      | ok found =>
          rw [found] at done
          exact absurd failed (not_failed_of_run done.1)
  | repair =>
      obtain ⟨left, run, _⟩ := exists_run_reconcile consistent hosts
      exact absurd failed (not_failed_of_run run)

/-! ## Invocations -/

/-- An invocation empties a file in vain: its bucket is opened, and then its command does. -/
def Invocation.EmptiesInVain (invocation : Invocation) (world : World) (place : Place)
    (file : Place) : Prop :=
  (∃ opened, (invocation.openOwn.run.run world).1 = .ok opened) ∧
    invocation.command.EmptiesInVain world.tree (world.tree.contentsAt place) file

/-- An invocation that fails leaves its bucket intact, if that is consistent, and every file but
those of the engine. The one exception is a copy of an object that its identity means and that is
not there: it empties its file and fails. -/
theorem failure_leaves_data_intact {invocation : Invocation}
    (works : invocation.command ≠ .init) (named : invocation.bucket = some path)
    (located : world.tree.locate path = .ok place)
    (consistent : (world.tree.contentsAt place).Consistent)
    (apart : ∀ target output, invocation.command = .get target (some output) →
      world.tree.locateFile output ≠ .ok (place ++ [engineFile]))
    (failed : invocation.run.run.run world = (.error failure, after)) :
    after.tree.contentsAt place = world.tree.contentsAt place ∧
    (∀ file, invocation.EmptiesInVain world place file →
      after.tree.node? file = some (.file [])) ∧
    ∀ sought, sought ≠ place ++ [lockFile] → sought ≠ place ++ [engineFile] →
      ¬ invocation.EmptiesInVain world place sought →
      after.tree.node? sought = world.tree.node? sought := by
  obtain ⟨work, works⟩ := exists_works works
  rw [works.run_eq, run_bind_eq_error_iff] at failed
  rcases failed with unopened | ⟨opened, between, opens, failed⟩
  · obtain ⟨worked, kept, _⟩ := invocation.workedAt_openOwn named located unopened
    refine ⟨kept, fun file empties => ?_, fun sought lock engine _ => worked.beside _ lock engine⟩
    obtain ⟨⟨opened, opens⟩, _⟩ := empties
    rw [unopened] at opens
    exact absurd opens (by simp)
  · obtain ⟨worked, _, reaches⟩ := invocation.workedAt_openOwn named located opens
    obtain ⟨rfl, reaches⟩ := reaches opened rfl
    have sameFiles := fun output file =>
      @SameWays.locateFile_eq_ok_iff _ _ file output worked.ways
    have intact := works.leavesIntact consistent reaches.hosts
      (fun target output copies => mt (sameFiles output _).1 (apart target output copies)) failed
    have sameEmpties : ∀ file, invocation.command.EmptiesInVain between.tree
        (world.tree.contentsAt opened.place) file ↔
        invocation.EmptiesInVain world opened.place file := by
      intro file
      have opened : ∃ opened, (invocation.openOwn.run.run world).1 = .ok opened :=
        ⟨_, congrArg Prod.fst opens⟩
      simp only [Invocation.EmptiesInVain, EmptiesInVain, sameFiles, opened, true_and]
    refine ⟨intact.hosts.contentsAt_eq, fun file empties => ?_, fun sought lock engine spared => ?_⟩
    · exact intact.emptied file ((sameEmpties file).2 empties)
    · refine (intact.beside sought lock engine ?_).trans (worked.beside sought lock engine)
      exact fun empties => spared ((sameEmpties sought).1 empties)

/-- A bucket in which the report is stored, and a file beside it. -/
def shelf : FileTree :=
  ((({} : FileTree).put ["b"] .directory).put ["b", lockFile] (.file [])
    |>.put ["b", engineFile] (.engine (({} : Contents).withEntry Object.report.entry))).put ["keep"]
      (.file [1, 2, 3])

theorem contentsAt_shelf :
    shelf.contentsAt ["b"] = ({} : Contents).withEntry Object.report.entry := by
  decide +kernel

theorem consistent_shelf : (shelf.contentsAt ["b"]).Consistent :=
  contentsAt_shelf ▸
    Contents.consistent_of_sound (@Entry.sound false _ Object.made_report ⟨rfl, by decide +kernel⟩)

/-- The copy of an object from the bucket to the file beside it. -/
def copyToKeep (target : Target) : Invocation :=
  ⟨none, none, some "/b", false, .text, .get target (some "/keep")⟩

/-- The file is emptied by the copy of an object that an identity means in vain, and keeps its
content where a name means it in vain. The bucket stays as it is in both cases. -/
theorem failed_copies_leave_bucket_intact :
    let world : World := ⟨shelf, {}, ⟨0, 0⟩, []⟩
    let after target := ((copyToKeep target).run.run.run world).2.tree
    let absent := Target.identity (⟨9⟩ : Uuid).toText
    let unnamed := Target.named "none" (⟨3⟩ : Uuid).toText
    let held := ({} : Contents).withEntry Object.report.entry
    (after absent).contentsAt ["b"] = held ∧ (after absent).node? ["keep"] = some (.file []) ∧
      (after unnamed).contentsAt ["b"] = held ∧
      (after unnamed).node? ["keep"] = some (.file [1, 2, 3]) := by
  intro world after absent unnamed held
  have apart : ∀ target meant output, (copyToKeep target).command = .get meant (some output) →
      world.tree.locateFile output ≠ .ok (["b"] ++ [engineFile]) := by
    intro target meant output copies
    obtain rfl := Option.some.inj (Command.get.inj copies).2
    decide +kernel
  have fails : ((copyToKeep absent).run.run.run world).1
      = .error (.ofStore (.notFound ⟨9⟩)) := by decide +kernel
  have failsUnnamed : ((copyToKeep unnamed).run.run.run world).1
      = .error (.ofStore (.nameNotFound "none" (⟨3⟩ : Uuid).toText)) := by decide +kernel
  obtain ⟨kept, emptied, _⟩ := failure_leaves_data_intact (by simp [copyToKeep]) rfl
    (by decide +kernel) consistent_shelf (apart absent) (Prod.fst_eq_iff.1 fails)
  obtain ⟨keptUnnamed, _, beside⟩ := failure_leaves_data_intact (by simp [copyToKeep]) rfl
    (by decide +kernel) consistent_shelf (apart unnamed) (Prod.fst_eq_iff.1 failsUnnamed)
  refine ⟨kept.trans contentsAt_shelf, emptied ["keep"] ⟨?_, ?_⟩,
    keptUnnamed.trans contentsAt_shelf, ?_⟩
  · have opens : ((copyToKeep absent).openOwn.run.run world).1.toOption.isSome = true := by
      decide +kernel
    obtain ⟨opened, opens⟩ := Option.isSome_iff_exists.1 opens
    exact ⟨opened, toOption_eq_some_iff.1 opens⟩
  · exact ⟨_, ⟨9⟩, "/keep", rfl, by decide +kernel, by decide +kernel, by decide +kernel⟩
  · refine (beside ["keep"] (by decide) (by decide) ?_).trans (by decide +kernel)
    rintro ⟨_, _, _, _, meant, _⟩
    exact absurd meant (by simp [copyToKeep])

/-- A file outside the directory of a bucket can lose its content to a command that fails. -/
theorem exists_failure_that_empties :
    ∃ (invocation : Invocation) (world after : World) (failure : Failure) (path : String)
      (place file : Place),
      invocation.command ≠ .init ∧ invocation.settings = none ∧ invocation.bucket = some path ∧
        world.tree.locate path = .ok place ∧ (world.tree.contentsAt place).Consistent ∧
        invocation.run.run.run world = (.error failure, after) ∧ ¬ place <+: file ∧
        world.tree.node? file = some (.file [1, 2, 3]) ∧
        after.tree.node? file = some (.file []) := by
  refine ⟨copyToKeep (.identity (⟨9⟩ : Uuid).toText), ⟨shelf, {}, ⟨0, 0⟩, []⟩, _,
    .ofStore (.notFound ⟨9⟩), "/b", ["b"], ["keep"], by simp [copyToKeep], rfl, rfl,
    by decide +kernel, consistent_shelf, Prod.fst_eq_iff.1 ?_, by decide,
    by decide +kernel, ?_⟩
  · decide +kernel
  · decide +kernel

end Command

end Depot
