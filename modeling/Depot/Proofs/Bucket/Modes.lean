import Mathlib.Data.List.Find
import Depot.Proofs.Bucket.Selecting
import Depot.Proofs.Bucket.Creation
import Depot.Proofs.Session.Agreement

/-!
# What the write modes have in common

On an engine in memory that refuses no call, both modes store and delete objects with the
same result and leave the same store. The one batch of the atomic mode is refused exactly if
the checks before the commits of the independent mode find a name that is held, and told in
terms of the same entry; and where nothing is refused, the order of the writes to different
regions does not matter. Nothing else in a bucket depends on the mode.
-/

namespace Depot

namespace Entry

/-- A name key that is taken is the conflict of the entry that has it. -/
theorem explain_keyTaken {entry : Entry} {entries : List Entry} (member : entry ∈ entries)
    (distinct : (entries.map nameKey).Nodup) :
    explain entries (.keyTaken .name entry.nameKey) = entry.conflict := by
  cases found : entries.find? fun other => other.nameKey = entry.nameKey with
  | none => exact absurd (List.find?_eq_none.1 found entry member) (by simp)
  | some other =>
      have same : other.nameKey = entry.nameKey := by simpa using List.find?_some found
      obtain rfl := List.inj_on_of_nodup_map distinct (List.mem_of_find?_eq_some found) member same
      simp only [explain, encode_decodeLossy_nameKey, found]

end Entry

namespace Contents

variable {contents : Contents} {entry : Entry} {entries : List Entry}

/-- The first of the entries whose name is held. -/
def firstHeld (contents : Contents) (entries : List Entry) : Option Entry :=
  entries.find? fun entry => (contents.names.get? entry.nameKey).isSome

/-- Entries with different names are admitted if none of their names is held. -/
theorem Admits.of_firstHeld (distinct : (entries.map Entry.nameKey).Nodup)
    (unheld : contents.firstHeld entries = none) : contents.Admits entries where
  free entry member := by simpa using List.find?_eq_none.1 unheld entry member
  distinct := distinct

/-- Names of entries after an entry of another name are held as before. -/
theorem firstHeld_withEntry (fresh : entry.nameKey ∉ entries.map Entry.nameKey) :
    (contents.withEntry entry).firstHeld entries = contents.firstHeld entries := by
  refine List.find?_congr fun other member => ?_
  have apart : other.nameKey ≠ entry.nameKey := fun same =>
    fresh (List.mem_map.2 ⟨other, member, same⟩)
  exact congrArg Option.isSome (OrderedMap.get?_insert_of_ne contents.names entry.key apart)

/-- A name is committed unless it is held. -/
theorem commit_nameWrite_eq (contents : Contents) (entry : Entry) :
    contents.commit .unrestricted entry.nameWrite
      = if (contents.names.get? entry.nameKey).isSome then .error (.keyTaken .name entry.nameKey)
        else .ok (contents.withName entry) := by
  cases held : contents.names.get? entry.nameKey with
  | none => exact commit_putNew_eq_ok_iff.2 ⟨rfl, held, rfl⟩
  | some holder =>
      have taken : contents.apply .unrestricted (.putNew .name entry.nameKey entry.key)
          = .error (.keyTaken .name entry.nameKey) := by
        simp [apply, KeyRule.admitsBinding, KeyRule.admitsLookup, KeyRule.unrestricted, get?,
          region, held]
      show contents.applyAll .unrestricted [.putNew .name entry.nameKey entry.key] = _
      rw [applyAll, taken]
      rfl

/-- An entry is committed unless its name is held. -/
theorem commit_fullWrite_eq (contents : Contents) (entry : Entry) :
    contents.commit .unrestricted entry.fullWrite
      = if (contents.names.get? entry.nameKey).isSome then .error (.keyTaken .name entry.nameKey)
        else .ok (contents.withEntry entry) := by
  rw [Entry.fullWrite, commit_extend, commit_extend, commit_nameWrite_eq]
  cases contents.names.get? entry.nameKey with
  | none => rfl
  | some holder => rfl

/-- Entries with different names are committed unless one of the names is held. -/
theorem commit_fullWrites_eq (distinct : (entries.map Entry.nameKey).Nodup) :
    contents.commit .unrestricted (Batch.join (entries.map Entry.fullWrite))
      = match contents.firstHeld entries with
        | some entry => .error (.keyTaken .name entry.nameKey)
        | none => .ok (contents.withEntries entries) := by
  induction entries generalizing contents with
  | nil => rfl
  | cons entry rest inductionHypothesis =>
      obtain ⟨fresh, distinct⟩ := List.nodup_cons.1 distinct
      rw [List.map_cons, commit_join_cons, commit_fullWrite_eq, firstHeld, List.find?_cons]
      cases (contents.names.get? entry.nameKey).isSome with
      | true => rfl
      | false =>
          refine (inductionHypothesis distinct).trans ?_
          rw [firstHeld_withEntry fresh]
          rfl

/-- The content of entries is always committed. -/
theorem commit_payloadWrites_eq (contents : Contents) (entries : List Entry) :
    contents.commit .unrestricted (Batch.join (entries.map Entry.payloadWrite))
      = .ok (contents.withPayloads entries) := by
  have sure : ∀ write ∈ (Batch.join (entries.map Entry.payloadWrite)).writes,
      KeyRule.unrestricted.IsSure write := by
    intro write member
    simp only [Batch.writes_join, List.mem_flatMap, List.mem_map] at member
    obtain ⟨_, ⟨entry, _, rfl⟩, written⟩ := member
    obtain rfl := List.mem_singleton.1 written
    rfl
  have done := @applyAll_of_sure _ contents _ sure
  exact done.trans (congrArg Except.ok (commit_payloadWrites done))

/-- Every engine removes keys that are not empty. -/
theorem commit_delete_eq {rule : KeyRule} (contents : Contents) (region : Region) {key : Bytes}
    (present : key ≠ []) :
    contents.commit rule (Batch.empty.delete region key)
      = .ok (contents.update region (·.erase key)) :=
  commit_delete_eq_ok_iff.2 ⟨rule.admitsLookup_of_ne_nil present, rfl⟩

/-- The removal of the name is always committed. -/
theorem commit_nameRemoval_eq {rule : KeyRule} (contents : Contents) (identity : Uuid)
    (metadata : Metadata) :
    contents.commit rule (contents.nameRemoval identity metadata)
      = .ok (contents.withoutName identity metadata) := by
  unfold nameRemoval withoutName
  cases claimed : Bucket.claimedName metadata with
  | none => rfl
  | some key =>
      dsimp only
      split
      · exact contents.commit_delete_eq .name (Bucket.ne_nil_of_claimedName claimed)
      · rfl

/-- The batch that removes an object is always committed. -/
theorem commit_removal_eq {rule : KeyRule} (contents : Contents) (identity : Uuid)
    (metadata : Metadata) :
    contents.commit rule
        (((contents.nameRemoval identity metadata).extend
          (Batch.empty.delete .payload identity.key)).extend
            (Batch.empty.delete .metadata identity.key))
      = .ok (contents.without identity metadata) := by
  rw [commit_extend, commit_extend, commit_nameRemoval_eq]
  refine (congrArg (· >>= _) (commit_delete_eq _ .payload identity.key_ne_nil)).trans ?_
  exact commit_delete_eq _ .metadata identity.key_ne_nil

end Contents

namespace Bucket

variable {store : Store} {entry : Entry} {entries : List Entry} {contents : Contents}
  {events : List Event}

/-- The bucket with another write mode. -/
def withMode (bucket : Bucket) (mode : WriteMode) : Bucket :=
  { bucket with settings := { bucket.settings with writeMode := mode } }

/-- Without a hazard, a batch of entries is committed or refused in terms of the entries. -/
theorem run_commitEntries (calm : store.hazard = .none) (batch : Batch) :
    (commitEntries entries batch).run.run store
      = match store.contents.commit store.keyRule batch with
        | .ok contents => (.ok (), { store with contents })
        | .error error => (.error (Entry.explain entries error), store) := by
  rw [run_commitEntries_eq, Session.run_commit calm]
  cases store.contents.commit store.keyRule batch with
  | ok contents => rfl
  | error error => rfl

/-- Without a hazard, a name that is held is told as a conflict. -/
theorem run_requireFreeName (calm : store.hazard = .none) (entry : Entry) :
    (requireFreeName entry).run.run store
      = if (store.contents.names.get? entry.nameKey).isSome then (.error entry.conflict, store)
        else (.ok (), store) := by
  have present : entry.nameKey ≠ [] := nameKey_ne_nil _ _
  rw [requireFreeName, run_bind, Session.run_holds calm .name present]
  show (if (store.contents.names.get? entry.nameKey).isSome then _ else _ : Session Unit).run.run
    store = _
  cases (store.contents.names.get? entry.nameKey).isSome with
  | true => rfl
  | false => rfl

/-- Without a hazard, the first entry whose name is held is found. -/
theorem run_requireFreeNames (calm : store.hazard = .none) (entries : List Entry) :
    (requireFreeNames entries).run.run store
      = match store.contents.firstHeld entries with
        | some entry => (.error entry.conflict, store)
        | none => (.ok (), store) := by
  induction entries with
  | nil => rfl
  | cons entry rest inductionHypothesis =>
      rw [requireFreeNames, run_bind, run_requireFreeName calm, Contents.firstHeld,
        List.find?_cons]
      cases (store.contents.names.get? entry.nameKey).isSome with
      | true => rfl
      | false => exact inductionHypothesis

/-- On a calm engine in memory, an entry whose name is free gets its name and its record. -/
theorem run_indexEntry (free : contents.names.get? entry.nameKey = none) :
    (indexEntry entry).run.run { contents, events }
      = (.ok (), { contents := (contents.withName entry).withRecord entry, events }) := by
  have named : contents.commit .unrestricted entry.nameWrite = .ok (contents.withName entry) := by
    rw [Contents.commit_nameWrite_eq, free]
    rfl
  rw [indexEntry, run_bind, run_commitEntries rfl]
  dsimp only
  rw [named]
  exact Session.run_commit rfl entry.recordWrite

/-- On a calm engine in memory, entries with free names that differ are all indexed. -/
theorem run_indexEntries (admits : contents.Admits entries) :
    ∃ after, contents.Indexed entries entries.length after ∧
      (indexEntries entries).run { contents, events }
        = ((entries.length, .ok ()), { contents := after, events }) := by
  induction entries generalizing contents with
  | nil => exact ⟨contents, .stopped contents [], rfl⟩
  | cons entry rest inductionHypothesis =>
      obtain ⟨free, admitsRest⟩ := admits.withEntry
      have admitsNext : ((contents.withName entry).withRecord entry).Admits rest :=
        ⟨admitsRest.free, admitsRest.distinct⟩
      obtain ⟨after, indexed, run⟩ := inductionHypothesis admitsNext
      refine ⟨after, .next free indexed, ?_⟩
      rw [indexEntries, StateT.run_bind, run_indexEntry free]
      exact congrArg (fun ran => ((ran.1.1 + 1, ran.1.2), ran.2)) run

/-- On a calm engine in memory, both modes write an entry unless its name is held. -/
theorem run_writeEntry (mode : WriteMode) (entry : Entry) :
    (writeEntry mode entry).run.run { contents, events }
      = if (contents.names.get? entry.nameKey).isSome then
          (.error entry.conflict, { contents, events })
        else (.ok (), { contents := contents.withEntry entry, events }) := by
  cases mode with
  | atomic =>
      rw [writeEntry, run_commitEntries rfl]
      dsimp only
      rw [Contents.commit_fullWrite_eq]
      cases (contents.names.get? entry.nameKey).isSome with
      | false => rfl
      | true =>
          have explained : Entry.explain [entry] (.keyTaken .name entry.nameKey) = entry.conflict :=
            Entry.explain_keyTaken List.mem_cons_self (List.nodup_singleton _)
          simp only [if_true, explained]
  | independent =>
      rw [writeEntry, run_bind, run_requireFreeName rfl]
      dsimp only
      cases held : contents.names.get? entry.nameKey with
      | some holder => rfl
      | none =>
          have paid : contents.commit .unrestricted entry.payloadWrite
              = .ok (contents.withPayload entry) := Contents.commit_put_eq_ok_iff.2 ⟨rfl, rfl⟩
          show StateT.run (ExceptT.run (do Session.commit entry.payloadWrite; indexEntry entry)) _
            = _
          rw [run_bind, Session.run_commit rfl]
          dsimp only
          rw [paid]
          exact @run_indexEntry entry (contents.withPayload entry) events held

/-- On a calm engine in memory, both modes write entries with different names unless one of
the names is held. -/
theorem run_writeEntries (mode : WriteMode) (distinct : (entries.map Entry.nameKey).Nodup) :
    (writeEntries mode entries).run { contents, events }
      = match contents.firstHeld entries with
        | some entry => ((0, .error entry.conflict), { contents, events })
        | none =>
          ((entries.length, .ok ()), { contents := contents.withEntries entries, events }) := by
  cases mode with
  | atomic =>
      rw [writeEntries, StateT.run_bind, run_commitEntries rfl]
      dsimp only
      rw [Contents.commit_fullWrites_eq distinct]
      cases held : contents.firstHeld entries with
      | none => rfl
      | some entry =>
          have explained := Entry.explain_keyTaken (List.mem_of_find?_eq_some held) distinct
          dsimp only
          rw [explained]
          rfl
  | independent =>
      rw [writeEntries, StateT.run_bind, run_bind, run_requireFreeNames rfl]
      dsimp only
      cases held : contents.firstHeld entries with
      | some entry => rfl
      | none =>
          have admits := Contents.Admits.of_firstHeld distinct held
          have ready : (contents.withPayloads entries).Admits entries :=
            ⟨by rw [Contents.names_withPayloads]; exact admits.free, distinct⟩
          obtain ⟨after, indexed, run⟩ := @run_indexEntries entries _ events ready
          obtain rfl := indexed.all.2
          dsimp only
          rw [Session.run_commit rfl]
          dsimp only
          rw [Contents.commit_payloadWrites_eq]
          exact run

/-- On a calm engine in memory, both modes delete an object in the same way. -/
theorem agrees_delete (bucket : Bucket) (identity : Uuid) :
    Agrees (.reliable .unrestricted) ((bucket.withMode .atomic).delete identity).run
      ((bucket.withMode .independent).delete identity).run contents := by
  refine Agrees.follow (Agrees.refl _) (leads_metadata identity) ?_
  rintro metadata _ ⟨rfl, _⟩
  refine Agrees.follow (Agrees.refl _) (leads_nameRemoval identity metadata) ?_
  rintro names contents shows
  obtain rfl := Except.ok.inj shows.eq_of_ok
  obtain rfl := shows.1
  intro store hold start
  obtain ⟨events, rfl⟩ := hold.inMemory start
  have named : (Session.commit (contents.nameRemoval identity metadata)).run.run
        { contents, events }
      = (.ok (), { contents := contents.withoutName identity metadata, events }) := by
    rw [Session.run_commit rfl]
    dsimp only
    rw [Contents.commit_nameRemoval_eq]
  -- the commits of the independent mode that follow that of the name
  have rest : (do
      Session.commit (Batch.empty.delete .payload identity.key)
      Session.commit (Batch.empty.delete .metadata identity.key)
      bucket.report (.objectDeleted identity) : Session Unit).run.run
        { contents := contents.withoutName identity metadata, events }
      = (bucket.report (.objectDeleted identity)).run.run
          { contents := contents.without identity metadata, events } := by
    rw [run_bind, Session.run_commit rfl]
    rfl
  calc _ = (bucket.report (.objectDeleted identity)).run.run
          { contents := contents.without identity metadata, events } := by
        show (Session.commit _ >>= fun _ => bucket.report _ : Session Unit).run.run _ = _
        rw [run_bind, Session.run_commit rfl]
        dsimp only
        rw [Contents.commit_removal_eq]
    _ = _ := by
        rw [← rest]
        dsimp only [withMode]
        split
        · rename_i empty
          rw [Contents.withoutName_of_isEmpty empty]
          rfl
        · rw [run_bind (Session.commit (contents.nameRemoval identity metadata)), named]
          rfl

theorem agrees_writeEntry (entry : Entry) :
    Agrees (.reliable .unrestricted) (writeEntry .atomic entry).run
      (writeEntry .independent entry).run contents := by
  intro store hold start
  obtain ⟨events, rfl⟩ := hold.inMemory start
  exact (run_writeEntry .atomic entry).trans (run_writeEntry .independent entry).symm

theorem agrees_writeEntries (distinct : (entries.map Entry.nameKey).Nodup) :
    Agrees (.reliable .unrestricted) (writeEntries .atomic entries)
      (writeEntries .independent entries) contents := by
  intro store hold start
  obtain ⟨events, rfl⟩ := hold.inMemory start
  exact (run_writeEntries .atomic distinct).trans (run_writeEntries .independent distinct).symm

/-- On a calm engine in memory, both modes store an object in the same way. -/
theorem agrees_create (bucket : Bucket) (object : Object) :
    Agrees (.reliable .unrestricted) ((bucket.withMode .atomic).create object).run
      ((bucket.withMode .independent).create object).run contents := by
  refine Agrees.follow (Agrees.refl _) (@Leads.ofExcept _ _ _ _ (fun _ _ => True) trivial) ?_
  intro entry between _
  refine Agrees.follow (agrees_writeEntry entry) leads_writeEntry ?_
  exact fun _ _ _ => Agrees.refl _

/-- On a calm engine in memory, both modes store several objects in the same way. -/
theorem agrees_createBatch (bucket : Bucket) (objects : List Object) :
    Agrees (.reliable .unrestricted) ((bucket.withMode .atomic).createBatch objects)
      ((bucket.withMode .independent).createBatch objects) contents := by
  unfold createBatch
  cases objects with
  | nil => exact Agrees.refl _
  | cons object rest =>
      generalize size : object :: rest = objects
      have present : objects.map Object.entry ≠ [] := by simp [← size]
      rw [if_neg (by simp [← size]), if_neg (by simp [← size])]
      have same : ∀ mode, (bucket.withMode mode).prepareBatch objects
          = bucket.prepareBatch objects := fun _ => rfl
      rw [same, same]
      cases prepared : bucket.prepareBatch objects with
      | error error => exact Agrees.refl _
      | ok entries =>
          obtain ⟨_, distinct, rfl⟩ := prepareBatch_eq_ok_iff.1 prepared
          refine Agrees.bind (agrees_writeEntries distinct) (leads_writeEntries present) ?_
          exact fun _ _ _ => Agrees.refl _

/-- Deleting the object of a name resolves the name first. -/
theorem agrees_deleteNamed (bucket : Bucket) (name owner : String) :
    Agrees (.reliable .unrestricted) ((bucket.withMode .atomic).deleteNamed name owner).run
      ((bucket.withMode .independent).deleteNamed name owner).run contents :=
  Agrees.follow (Agrees.refl _) (leads_resolve name owner) fun identity _ _ =>
    agrees_delete bucket identity

/-- Deletions one by one agree. -/
theorem agrees_deleteEach (bucket : Bucket) (identities : List Uuid) :
    Agrees (.reliable .unrestricted) ((bucket.withMode .atomic).deleteEach identities).run
      ((bucket.withMode .independent).deleteEach identities).run contents := by
  induction identities generalizing contents with
  | nil => exact Agrees.refl _
  | cons identity rest inductionHypothesis =>
      refine Agrees.attempt (agrees_delete bucket identity) (leads_delete identity) ?_
      intro result between _
      cases result with
      | ok =>
          refine Agrees.follow inductionHypothesis (leads_deleteEach rest) ?_
          exact fun _ _ _ => Agrees.refl _
      | error error =>
          dsimp only
          split
          · refine Agrees.follow (Agrees.refl _)
              (@Leads.emit _ _ _ (fun _ _ => True) trivial) fun _ _ _ => inductionHypothesis
          · exact Agrees.refl _

/-- Deletions of selected objects agree. -/
theorem agrees_deleteSelected (bucket : Bucket) (selection : Selection) :
    Agrees (.reliable .unrestricted) ((bucket.withMode .atomic).deleteSelected selection).run
      ((bucket.withMode .independent).deleteSelected selection).run contents := by
  refine Agrees.follow (Agrees.refl _) (leads_select selection) fun identities _ _ => ?_
  refine Agrees.follow (agrees_deleteEach bucket identities) (leads_deleteEach identities) ?_
  exact fun _ _ _ => Agrees.refl _

/-- Objects are fetched without regard to the mode. -/
theorem fetchEach_withMode (bucket : Bucket) (mode : WriteMode) (identities : List Uuid) :
    (bucket.withMode mode).fetchEach identities = bucket.fetchEach identities := by
  induction identities with
  | nil => rfl
  | cons identity rest inductionHypothesis =>
      rw [fetchEach, fetchEach, inductionHypothesis]
      rfl

theorem fetchSelected_withMode (bucket : Bucket) (mode : WriteMode) (selection : Selection) :
    (bucket.withMode mode).fetchSelected selection = bucket.fetchSelected selection := by
  unfold fetchSelected
  simp only [fetchEach_withMode]
  rfl

/-- Runs of selections agree. -/
theorem agrees_run (bucket : Bucket) (selection : Selection) :
    Agrees (.reliable .unrestricted) ((bucket.withMode .atomic).run selection).run
      ((bucket.withMode .independent).run selection).run contents := by
  unfold run
  cases selection.purpose with
  | fetch =>
      dsimp only
      rw [fetchSelected_withMode, fetchSelected_withMode]
      exact Agrees.refl _
  | delete =>
      dsimp only
      rw [← bind_pure_comp, ← bind_pure_comp]
      refine Agrees.follow (agrees_deleteSelected bucket selection)
        (leads_deleteSelected selection) fun _ _ _ => Agrees.refl _

end Bucket

end Depot
