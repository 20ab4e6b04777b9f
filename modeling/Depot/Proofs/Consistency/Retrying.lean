import Depot.Proofs.Bucket.Calm
import Depot.Proofs.Consistency.Listing
import Depot.Proofs.Session.Calls

/-!
# Deletions that are tried again

In the independent mode a deletion is several commits, and a refused call leaves the object
half-way. The record goes last, so the next attempt finds the same metadata again, and contents
that differ only in what belongs to the object are the same without it. Other objects may be
created between the attempts, one of them under the name that was freed: its entries belong to
another identity, so no attempt takes them away. An attempt ends with the first refusal among its
calls, and if there is none, with the contents that an undisturbed deletion at the start and the
creations after it would have left.
-/

namespace Depot

namespace Contents

variable {contents left right before after : Contents} {identity : Uuid} {metadata : Metadata}
  {mode : WriteMode} {entry : Entry} {entries : List Entry} {region : Region} {key value : Bytes}

/-- An entry that is written is found, and other keys keep their values. -/
theorem get?_withEntry (contents : Contents) (entry : Entry) (region : Region) (key : Bytes) :
    (contents.withEntry entry).get? region key
      = if key = entry.keyIn region then some (entry.valueIn region)
        else contents.get? region key := by
  cases region <;> exact OrderedMap.get?_insert_eq _ _ _ _

/-- Nothing of an entry belongs to another identity. -/
theorem not_belongs_of_ne (apart : entry.identity ≠ identity) (region : Region) :
    ¬ Belongs identity metadata region (entry.keyIn region) (entry.valueIn region) := by
  intro belongs
  cases region with
  | payload => exact apart (Uuid.key_injective belongs)
  | name => exact apart (Uuid.key_injective belongs.1)
  | metadata => exact apart (Uuid.key_injective belongs)

/-- Contents that differ only in what belongs to an object are the same without it. -/
theorem without_congr
    (same : ∀ region key value, ¬ Belongs identity metadata region key value →
      (left.get? region key = some value ↔ right.get? region key = some value)) :
    left.without identity metadata = right.without identity metadata := by
  refine ext_get? fun region key => Option.ext fun value => ?_
  rw [get?_without_iff, get?_without_iff]
  exact and_congr_left (same region key value)

/-- The removal of the name spares what does not belong to the object. -/
theorem get?_withoutName_of_spared (spared : ¬ Belongs identity metadata region key value) :
    (contents.withoutName identity metadata).get? region key = some value ↔
      contents.get? region key = some value := by
  cases region with
  | payload =>
      show (contents.withoutName identity metadata).payloads.get? key = _ ↔ _
      rw [payloads_withoutName]
      rfl
  | name =>
      refine get?_withoutName_eq_some_iff.trans (and_iff_left ?_)
      rintro ⟨claimed, rfl⟩
      exact spared ⟨rfl, claimedName_eq_some_iff.1 claimed⟩
  | metadata =>
      show (contents.withoutName identity metadata).records.get? key = _ ↔ _
      rw [records_withoutName]
      rfl

/-- So does the removal of the content. -/
theorem get?_withoutPayload_of_spared (spared : ¬ Belongs identity metadata region key value) :
    (contents.withoutPayload identity).get? region key = some value ↔
      contents.get? region key = some value := by
  cases region with
  | payload => exact OrderedMap.get?_erase_eq_some_iff.trans (and_iff_left spared)
  | name => rfl
  | metadata => rfl

/-- What is left half-way is without the object what there was before without it, and it has the
record that there was before. -/
theorem Interrupted.same_without (interrupted : before.Interrupted mode identity after)
    (found : before.metadataOf identity = .ok metadata) :
    after.without identity metadata = before.without identity metadata ∧
      after.records = before.records := by
  cases interrupted with
  | unnamed _ foundAgain =>
      obtain rfl := Except.ok.inj (found.symm.trans foundAgain)
      refine ⟨without_congr fun _ _ _ spared => ?_, records_withoutName⟩
      exact get?_withoutName_of_spared spared
  | emptied _ foundAgain =>
      obtain rfl := Except.ok.inj (found.symm.trans foundAgain)
      refine ⟨without_congr fun _ _ _ spared => ?_, records_withoutName⟩
      exact (get?_withoutPayload_of_spared spared).trans (get?_withoutName_of_spared spared)

/-- It does not matter whether an object is removed before or after an entry of another identity
is written. -/
theorem without_withEntry_of_ne (contents : Contents) (apart : entry.identity ≠ identity) :
    (contents.withEntry entry).without identity metadata
      = (contents.without identity metadata).withEntry entry := by
  refine ext_get? fun region key => Option.ext fun value => ?_
  rw [get?_without_iff, get?_withEntry, get?_withEntry]
  split
  · rename_i own
    subst own
    refine and_iff_left_of_imp fun same => ?_
    obtain rfl := Option.some.inj same
    exact not_belongs_of_ne apart region
  · exact get?_without_iff.symm

/-- Entries of other identities leave the record of an identity as it is. -/
theorem records_withEntries_of_ne (contents : Contents)
    (apart : ∀ entry ∈ entries, entry.identity ≠ identity) :
    (contents.withEntries entries).records.get? identity.key
        = contents.records.get? identity.key ∧
      (contents.withEntries entries).without identity metadata
        = (contents.without identity metadata).withEntries entries := by
  induction entries generalizing contents with
  | nil => exact ⟨rfl, rfl⟩
  | cons entry rest inductionHypothesis =>
      obtain ⟨here, later⟩ := List.forall_mem_cons.1 apart
      obtain ⟨kept, commutes⟩ := inductionHypothesis (contents.withEntry entry) later
      have other : identity.key ≠ entry.key := fun same => here (Uuid.key_injective same.symm)
      refine ⟨kept.trans (OrderedMap.get?_insert_of_ne _ _ other), commutes.trans ?_⟩
      rw [without_withEntry_of_ne contents here]
      rfl

/-- Metadata is found where the same record is. -/
theorem metadataOf_congr
    (same : left.records.get? identity.key = right.records.get? identity.key) :
    left.metadataOf identity = right.metadataOf identity := by
  rw [metadataOf, metadataOf, same]

end Contents

namespace Bucket

variable {rule : KeyRule} {bucket : Bucket} {before : Contents} {identity : Uuid}
  {metadata : Metadata}

/-! ## The calls of a deletion -/

/-- The calls of a deletion in the independent mode: the record is looked up, then the name that
it claims, then there is a commit for the name if it leads to the object, one for the content and
one for the record. -/
def deletionCalls (contents : Contents) (identity : Uuid) (metadata : Metadata) :
    List (Call × Batch) :=
  let names := contents.nameRemoval identity metadata
  (.get, .empty) :: (claimedName metadata).toList.map (fun _ => (.get, .empty))
    ++ (if names.isEmpty then [] else [(.commit, names)])
    ++ [(.commit, Batch.empty.delete .payload identity.key),
      (.commit, Batch.empty.delete .metadata identity.key)]

theorem meets_metadata (found : before.metadataOf identity = .ok metadata) :
    Meets rule (bucket.metadata identity) before [(.get, .empty)] (.ok metadata) before := by
  obtain ⟨record, held, read⟩ := Contents.metadataOf_eq_ok_iff.1 found
  have decoded : Makes rule (do
      let record ← require (.notFound identity) (before.get? .metadata identity.key)
      Session.decoded (Metadata.decode record)) before [] (.ok metadata) before := by
    rw [show before.get? .metadata identity.key = some record from held]
    show Makes rule (Session.decoded (Metadata.decode record)) before [] _ before
    rw [read]
    exact Makes.give metadata
  exact (Makes.andThen (Makes.value? .metadata identity.key_ne_nil) decoded (.inl rfl)).meets

theorem meets_nameRemoval (identity : Uuid) (metadata : Metadata) :
    Meets rule (nameRemoval identity metadata) before
      ((claimedName metadata).toList.map fun _ => (.get, .empty))
      (.ok (before.nameRemoval identity metadata)) before := by
  unfold nameRemoval Contents.nameRemoval
  cases claimed : claimedName metadata with
  | none => exact (Makes.give _).meets
  | some key =>
      have decided : Makes rule (if before.get? .name key = some identity.key then
          Pure.pure (Batch.empty.delete .name key) else Pure.pure .empty : Session Batch) before []
          (.ok (if before.names.get? key = some identity.key then Batch.empty.delete .name key
            else .empty)) before := by
        show Makes rule (if before.names.get? key = some identity.key then _ else _) before [] _ _
        split
        · exact Makes.give _
        · exact Makes.give _
      exact (Makes.andThen (Makes.value? .name (ne_nil_of_claimedName claimed)) decided
        (.inl rfl)).meets

/-- An engine commits every batch that it can commit. -/
theorem meets_commit {batch : Batch} {after : Contents}
    (done : before.commit rule batch = .ok after) :
    Meets rule (Session.commit batch) before [(.commit, batch)] (.ok ()) after :=
  (Makes.commit (by rw [done]; exact ⟨rfl, rfl⟩)).meets

/-- A deletion in the independent mode that finds metadata ends with the first refusal among its
calls, or the object is removed. -/
theorem meets_delete (independent : bucket.settings.writeMode = .independent)
    (found : before.metadataOf identity = .ok metadata) :
    Meets rule (bucket.delete identity) before (deletionCalls before identity metadata) (.ok ())
      (before.without identity metadata) := by
  have regrouped : deletionCalls before identity metadata
      = [(.get, .empty)] ++ ((claimedName metadata).toList.map (fun _ => (.get, .empty))
        ++ ((if (before.nameRemoval identity metadata).isEmpty then []
            else [(.commit, before.nameRemoval identity metadata)])
          ++ ([(.commit, Batch.empty.delete .payload identity.key)]
            ++ ([(.commit, Batch.empty.delete .metadata identity.key)] ++ [])))) := by
    simp [deletionCalls]
  rw [regrouped, delete]
  refine Meets.andThen (meets_metadata found) (Meets.andThen (meets_nameRemoval _ _) ?_)
  rw [independent]
  dsimp only
  have rest : Meets rule (do
      Session.commit (Batch.empty.delete .payload identity.key)
      Session.commit (Batch.empty.delete .metadata identity.key)
      bucket.report (.objectDeleted identity) : Session Unit)
      (before.withoutName identity metadata)
      ([(.commit, Batch.empty.delete .payload identity.key)]
        ++ ([(.commit, Batch.empty.delete .metadata identity.key)] ++ [])) (.ok ())
      (before.without identity metadata) :=
    Meets.andThen (meets_commit (Contents.commit_delete_eq _ .payload identity.key_ne_nil))
      (Meets.andThen (meets_commit (Contents.commit_delete_eq _ .metadata identity.key_ne_nil))
        (Makes.emitIf _ _).meets)
  split
  · rename_i empty
    rwa [Contents.withoutName_of_isEmpty empty] at rest
  · exact Meets.andThen (meets_commit (Contents.commit_nameRemoval_eq _ _ _)) rest

/-! ## Attempts -/

/-- What can be reached from a store by attempts to delete the object of an identity that fail and
by creations of other objects, whatever calls are refused, and the entries of the objects that
were created. -/
inductive Retried (bucket : Bucket) (identity : Uuid) (start : Store) :
    Store → List Entry → Prop where
  | start : Retried bucket identity start start []
  | attempt {store after : Store} {created : List Entry} {error : StoreError}
      (prior : Retried bucket identity start store created)
      (failed : (bucket.delete identity).run.run store = (.error error, after)) :
      Retried bucket identity start after created
  | create {store after : Store} {created : List Entry} {object stored : Object}
      (prior : Retried bucket identity start store created) (other : object.identity ≠ identity)
      (done : (bucket.create object).run.run store = (.ok stored, after)) :
      Retried bucket identity start after (created ++ [object.entry])
  | createBatch {store after : Store} {created : List Entry} {objects back : List Object}
      {identities : List Uuid} (prior : Retried bucket identity start store created)
      (others : ∀ object ∈ objects, object.identity ≠ identity)
      (done : (bucket.createBatch objects).run store = (⟨.ok identities, back⟩, after)) :
      Retried bucket identity start after (created ++ objects.map Object.entry)
  | arrange {store : Store} {created : List Entry}
      (prior : Retried bucket identity start store created) (hazard : Hazard)
      (alone : hazard.IsAlone) : Retried bucket identity start { store with hazard } created

/-- What the attempts keep: the metadata is found, and without the object there is what there was
at the start without it, and what was created. -/
structure Pending (identity : Uuid) (metadata : Metadata) (start : Contents) (store : Store)
    (created : List Entry) : Prop where
  alone : store.hazard.IsAlone
  found : store.contents.metadataOf identity = .ok metadata
  others : store.contents.without identity metadata
    = (start.without identity metadata).withEntries created

variable {start store after : Store} {created : List Entry}

/-- An attempt that fails keeps it. -/
theorem Pending.attempt {error : StoreError}
    (pending : Pending identity metadata start.contents store created)
    (failed : (bucket.delete identity).run.run store = (.error error, after)) :
    Pending identity metadata start.contents after created := by
  obtain ⟨hold, deletes⟩ := (leads_delete identity : Leads _ (bucket.delete identity).run _ _)
    store (Circumstances.hold_unreliable pending.alone) rfl
  rw [failed] at hold deletes
  rcases deletes with same | ⟨_, interrupted⟩
  · exact ⟨hold.alone, same ▸ pending.found, same ▸ pending.others⟩
  · obtain ⟨sameWithout, sameRecords⟩ := interrupted.same_without pending.found
    refine ⟨hold.alone, ?_, sameWithout.trans pending.others⟩
    rw [Contents.metadataOf_congr (congrArg (·.get? identity.key) sameRecords)]
    exact pending.found

/-- Entries of other identities that are written keep it. -/
theorem Pending.withEntries {entries : List Entry}
    (pending : Pending identity metadata start.contents store created)
    (apart : ∀ entry ∈ entries, entry.identity ≠ identity) (alone : after.hazard.IsAlone)
    (left : after.contents = store.contents.withEntries entries) :
    Pending identity metadata start.contents after (created ++ entries) := by
  obtain ⟨kept, commutes⟩ := store.contents.records_withEntries_of_ne apart
  refine ⟨alone, ?_, ?_⟩
  · rw [left, Contents.metadataOf_congr kept]
    exact pending.found
  · rw [left, commutes, pending.others]
    exact List.foldl_append.symm

theorem Retried.pending (retried : Retried bucket identity start store created)
    (alone : start.hazard.IsAlone) (found : start.contents.metadataOf identity = .ok metadata) :
    Pending identity metadata start.contents store created := by
  induction retried with
  | start => exact ⟨alone, found, rfl⟩
  | attempt _ failed pending => exact pending.attempt failed
  | @create store after created object stored _ other done pending =>
      have hold := (@leads_create _ _ bucket object store
        (Circumstances.hold_unreliable pending.alone) rfl).1
      have left := (create_eq_ok pending.alone (congrArg Prod.fst done)).2.2
      rw [done] at hold left
      exact pending.withEntries (List.forall_mem_singleton.2 other) hold.alone left
  | @createBatch store after created objects back identities _ others done pending =>
      have hold := (@leads_createBatch _ _ bucket objects store
        (Circumstances.hold_unreliable pending.alone) rfl).1
      have left := (createBatch_eq_ok pending.alone
        (congrArg (fun ran => ran.1.result) done)).2.2
      rw [done] at hold left
      exact pending.withEntries (List.forall_mem_map.2 others) hold.alone left
  | arrange _ hazard alone pending => exact ⟨alone, pending.found, pending.others⟩

/-- However often a deletion in the independent mode was tried in vain, and whatever other objects
were created in between, the record of the object is there, and the next attempt ends with the
first refusal among its calls, never because the object is missing. If there is no refusal, it
leaves what a deletion at the start and the same creations leave, and takes nothing away but what
the object owns. -/
theorem delete_finishes_retried {object : Object} {result : Except StoreError Unit}
    (independent : bucket.settings.writeMode = .independent) (alone : start.hazard.IsAlone)
    (consistent : start.contents.Consistent) (held : start.contents.Holds object)
    (retried : Retried bucket object.identity start store created)
    (ran : (bucket.delete object.identity).run.run store = (result, after)) :
    (store.contents.get? .metadata object.identity.key).isSome = true ∧
    result = (store.hazard.meetAll
      (deletionCalls store.contents object.identity object.metadata)).1 ∧
    (∀ error, result = .error error → error.isNotFound = false) ∧
    (result = .ok () →
      (∃ last, (bucket.delete object.identity).run.run { start with hazard := .none }
          = (.ok (), last) ∧ after.contents = last.contents.withEntries created) ∧
      store.contents.LeavesOut [object] after.contents) := by
  have found := Contents.metadataOf_eq_ok_iff.2 held.record
  obtain ⟨_, _, describes, _⟩ := consistent.recorded.describes found
  have pending := retried.pending alone found
  obtain ⟨record, recorded, _⟩ := Contents.metadataOf_eq_ok_iff.1 pending.found
  obtain ⟨verdict, left⟩ := (meets_delete independent pending.found).run_eq pending.alone rfl rfl
  rw [ran] at verdict left
  refine ⟨?_, verdict, ?_, fun done => ⟨?_, ?_⟩⟩
  · rw [show store.contents.get? .metadata object.identity.key = some record from recorded]
    rfl
  · rintro error rfl
    let calls := deletionCalls store.contents object.identity object.metadata
    rcases pending.alone.meetAll_cases calls with through | ⟨reason, refused⟩
    · exact absurd (verdict.trans through) (by simp)
    · obtain rfl := Except.error.inj (verdict.trans refused)
      rfl
  · have atOnce := @delete_of_found { start with hazard := .none } bucket _ _ rfl found
    refine ⟨_, Prod.fst_eq_iff.1 atOnce.1, ?_⟩
    rw [left done, pending.others, atOnce.2]
  · rw [left done]
    exact Contents.leavesOut_without describes

/-- The deletion of the report frees its name and is refused the content, the second report takes
the name, the next attempt is refused its first call, and the last one leaves the second report
alone. -/
theorem delete_finishes_retried_report :
    let bucket := (⟨{}, none⟩ : Bucket).withMode .independent
    let start : Store := { contents := ({} : Contents).withEntry Object.report.entry,
                           hazard := .scripted [false, false, false, true] }
    let second := Object.secondReport.entry
    ∃ first taken refused last : Store,
      (bucket.delete ⟨1⟩).run.run start = (.error Hazard.injected, first) ∧
      (bucket.create Object.secondReport).run.run first
        = (.ok Object.secondReport.sealed, taken) ∧
      (bucket.delete ⟨1⟩).run.run { taken with hazard := .scripted [true] }
        = (.error Hazard.injected, refused) ∧
      (bucket.delete ⟨1⟩).run.run { refused with hazard := .none } = (.ok (), last) ∧
      refused.contents.LeavesOut [Object.report.sealed] last.contents ∧
      last.contents = ({} : Contents).withEntry second := by
  intro bucket start second
  have consistent : start.contents.Consistent :=
    Contents.consistent_of_sound (@Entry.sound false _ Object.made_report ⟨rfl, by decide +kernel⟩)
  have held : start.contents.Holds Object.report.sealed :=
    ⟨⟨Object.report.entry.record, by decide +kernel, by decide +kernel⟩, by decide +kernel, rfl⟩
  have fails : (bucket.delete ⟨1⟩).run.run start
      = (.error Hazard.injected, ((bucket.delete ⟨1⟩).run.run start).2) :=
    Prod.fst_eq_iff.1 (by decide +kernel)
  set first := ((bucket.delete ⟨1⟩).run.run start).2
  have stores : (bucket.create Object.secondReport).run.run first
      = (.ok Object.secondReport.sealed, ((bucket.create Object.secondReport).run.run first).2) :=
    Prod.fst_eq_iff.1 (by decide +kernel)
  set taken := ((bucket.create Object.secondReport).run.run first).2
  have failsAgain : (bucket.delete ⟨1⟩).run.run { taken with hazard := .scripted [true] }
      = (.error Hazard.injected,
        ((bucket.delete ⟨1⟩).run.run { taken with hazard := .scripted [true] }).2) :=
    Prod.fst_eq_iff.1 (by decide +kernel)
  set refused := ((bucket.delete ⟨1⟩).run.run { taken with hazard := .scripted [true] }).2
  have finishes : (bucket.delete ⟨1⟩).run.run { refused with hazard := .none }
      = (.ok (), ((bucket.delete ⟨1⟩).run.run { refused with hazard := .none }).2) :=
    Prod.fst_eq_iff.1 (by decide +kernel)
  have retried : Retried bucket ⟨1⟩ start { refused with hazard := .none } [second] :=
    .arrange (.attempt (.arrange (.create (.attempt .start fails) (by decide +kernel) stores)
      (.scripted [true]) trivial) failsAgain) .none trivial
  obtain ⟨_, _, _, finished⟩ :=
    @delete_finishes_retried bucket start _ _ _ Object.report.sealed _ rfl trivial consistent held
      retried finishes
  exact ⟨_, _, _, _, fails, stores, failsAgain, finishes, (finished rfl).2, by decide +kernel⟩

end Bucket

end Depot
