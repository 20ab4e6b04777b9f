import Depot.Proofs.Bucket.Creation
import Depot.Proofs.Bucket.Lookup

/-!
# Failures that nobody is to blame for

An operation fails for what was handed over, for an object that is there or missing, or for its
engine. Two failures are none of these: stored bytes that cannot be read, and a key that should
be new and is taken. They are internal. Storing objects never ends in one of them, whatever the
contents are: only names are written under keys that must be new, and such a key that is taken is
told as the conflict of the object whose name it is.
-/

namespace Depot

/-- A failure is internal if neither what was handed over nor the engine is to blame. -/
def StoreError.IsInternal : StoreError → Prop
  | .undecodable _ | .keyTaken _ _ => True
  | _ => False

/-- A result is accountable if it is no internal failure. -/
def Accountable {α : Type} : Except StoreError α → Prop
  | .ok _ => True
  | .error error => ¬ error.IsInternal

variable {α β : Type} {circumstances : Circumstances} {before : Contents}

/-- A failure to say that an object is not there is not internal. -/
theorem StoreError.not_isInternal_of_isNotFound {error : StoreError}
    (missing : error.isNotFound = true) : ¬ error.IsInternal := by
  cases error with
  | notFound => exact id
  | nameNotFound => exact id
  | _ => exact absurd missing (by simp [isNotFound])

namespace Accountable

/-- One result after another is accountable if both are. -/
theorem bind {first : Except StoreError α} {next : α → Except StoreError β}
    (here : Accountable first) (later : ∀ value, first = .ok value → Accountable (next value)) :
    Accountable (first >>= next) := by
  cases first with
  | error error => exact here
  | ok value => exact later value rfl

/-- What is handed over may be refused. -/
theorem invalid (result : Except DataError α) : Accountable (result.mapError .invalid) := by
  cases result with
  | error cause => exact id
  | ok value => trivial

/-- A value may be missing if that is no internal failure. -/
theorem required {missing : StoreError} (known : ¬ missing.IsInternal) (value : Option α) :
    Accountable (Contents.required missing value) := by
  cases value with
  | none => exact known
  | some value => trivial

/-- What follows a value that may be missing counts only where it is there. -/
theorem requiredThen {missing : StoreError} {value : Option α} {next : α → Except StoreError β}
    (known : ¬ missing.IsInternal) (later : ∀ found, value = some found → Accountable (next found)) :
    Accountable (Contents.required missing value >>= next) := by
  cases value with
  | none => exact known
  | some found => exact later found rfl

end Accountable

/-- A look is accountable if what it shows is. -/
theorem Shows.accountable {value result : Except StoreError α} {after : Contents}
    (shows : Shows circumstances before value result after) (accountable : Accountable value) :
    Accountable result := by
  obtain ⟨_, same | ⟨_, reason, refusal⟩⟩ := shows
  · exact same ▸ accountable
  · rw [refusal]
    exact id

namespace Leads

/-- A session after a session fails accountably if both do. -/
theorem thenAccountable {session : Session α} {rest : α → Session β}
    (first : Leads circumstances session.run before fun result _ => Accountable result)
    (later : ∀ value between,
      Leads circumstances (rest value).run between fun result _ => Accountable result) :
    Leads circumstances (session >>= rest).run before fun result _ => Accountable result :=
  follow first (fun _ _ failed => failed) fun value between _ => later value between

/-- A commit without keys that must be new is refused by the engine only. -/
theorem commitAccountable {batch : Batch}
    (sure : ∀ region key value, .putNew region key value ∉ batch.writes) :
    Leads circumstances (Session.commit batch).run before fun result _ => Accountable result := by
  refine commit (fun _ _ => id) (fun error refused => ?_) fun _ _ => trivial
  rcases Contents.cause_of_applyAll refused with rfl | ⟨region, key, value, member, _⟩
  · exact id
  · exact absurd member (sure region key value)

end Leads

/-! ## Names that are taken -/

namespace Entry

variable {entry : Entry} {entries : List Entry} {batch : Batch} {rule : KeyRule}

/-- The batches in which a key must be new, with the entries for which they are committed. -/
inductive Inserts : List Entry → Batch → Prop where
  | name (entry : Entry) : Inserts [entry] entry.nameWrite
  | whole (entry : Entry) : Inserts [entry] entry.fullWrite
  | several (entries : List Entry) : Inserts entries (Batch.join (entries.map fullWrite))

theorem mem_fullWrite_iff {region : Region} {key value : Bytes} :
    .putNew region key value ∈ entry.fullWrite.writes ↔
      region = .name ∧ key = entry.nameKey ∧ value = entry.key := by
  simp [writes_fullWrite]

/-- A key that must be new is the name key of an entry. -/
theorem Inserts.own {region : Region} {key value : Bytes} (inserts : Inserts entries batch)
    (member : .putNew region key value ∈ batch.writes) :
    region = .name ∧ ∃ entry ∈ entries, entry.nameKey = key := by
  cases inserts with
  | name entry =>
      obtain ⟨rfl, rfl, _⟩ := Write.putNew.inj (List.mem_singleton.1 member)
      exact ⟨rfl, entry, List.mem_cons_self, rfl⟩
  | whole entry =>
      obtain ⟨rfl, rfl, _⟩ := mem_fullWrite_iff.1 member
      exact ⟨rfl, entry, List.mem_cons_self, rfl⟩
  | several =>
      rw [Batch.writes_join, List.mem_flatMap] at member
      obtain ⟨_, among, written⟩ := member
      obtain ⟨entry, entered, rfl⟩ := List.mem_map.1 among
      obtain ⟨rfl, rfl, _⟩ := mem_fullWrite_iff.1 written
      exact ⟨rfl, entry, entered, rfl⟩

/-- A taken key of one of these entries is told as the conflict of an entry with this key. -/
theorem explain_of_nameKey {key : Bytes} (own : ∃ entry ∈ entries, entry.nameKey = key) :
    ∃ entry ∈ entries, entry.nameKey = key ∧
      explain entries (.keyTaken .name key) = entry.conflict := by
  obtain ⟨holder, member, rfl⟩ := own
  cases found : entries.find? fun entry => entry.nameKey = holder.nameKey with
  | none => exact absurd (List.find?_eq_none.1 found holder member) (by simp)
  | some entry =>
      refine ⟨entry, List.mem_of_find?_eq_some found, by simpa using List.find?_some found, ?_⟩
      simp only [explain, encode_decodeLossy_nameKey, found]

/-- Such a batch is refused by the rule of the engine, or because the name of one of the entries
is taken, and that is told as a conflict. -/
theorem Inserts.explain {error : StoreError} (inserts : Inserts entries batch)
    (refused : before.commit rule batch = .error error) :
    error = KeyRule.refusal ∨ ∃ entry ∈ entries, error = .keyTaken .name entry.nameKey ∧
      Entry.explain entries error = entry.conflict := by
  refine (Contents.cause_of_applyAll refused).imp_right ?_
  rintro ⟨region, key, value, member, rfl⟩
  obtain ⟨rfl, own⟩ := inserts.own member
  obtain ⟨entry, among, rfl, told⟩ := explain_of_nameKey own
  exact ⟨entry, among, rfl, told⟩

end Entry

/-! ## Storing objects -/

namespace Bucket

variable {bucket : Bucket} {entry : Entry} {entries : List Entry} {batch : Batch}

/-- A commit of entries fails for the engine or for a conflict of one of them. -/
theorem accountable_commitEntries (inserts : Entry.Inserts entries batch) :
    Leads circumstances (commitEntries entries batch).run before
      fun result _ => Accountable result := by
  refine leads_commitEntries (fun _ _ => id) (fun error refused => ?_) fun _ _ => trivial
  rcases inserts.explain refused with rfl | ⟨entry, _, _, told⟩
  · exact id
  · rw [told]
    exact id

/-- A key that is taken is told as the conflict of the entry whose name has this key. -/
theorem conflict_of_keyTaken {store : Store} {region : Region} {key : Bytes}
    (alone : store.hazard.IsAlone) (inserts : Entry.Inserts entries batch)
    (taken : ((Session.commit batch).run.run store).1 = .error (.keyTaken region key)) :
    region = .name ∧ ∃ entry ∈ entries, entry.nameKey = key ∧
      ((commitEntries entries batch).run.run store).1 = .error entry.conflict := by
  have refused : store.contents.commit store.keyRule batch = .error (.keyTaken region key) := by
    have leads : Leads (.unreliable store.keyRule) (Session.commit batch).run store.contents
        fun result _ => result = .error (.keyTaken region key) →
          store.contents.commit store.keyRule batch = .error (.keyTaken region key) :=
      Leads.commit (fun _ _ same => absurd same (by simp))
        (fun _ failure same => failure.trans (congrArg _ (Except.error.inj same)))
        (fun _ _ same => absurd same (by simp))
    exact leads.outcome_of_run alone taken rfl
  rw [run_commitEntries_eq, taken]
  obtain unsized | ⟨entry, among, same, told⟩ := inserts.explain refused
  · exact absurd unsized (by simp [KeyRule.refusal])
  · obtain ⟨rfl, rfl⟩ := StoreError.keyTaken.inj same
    exact ⟨rfl, entry, among, rfl, congrArg Except.error told⟩

theorem accountable_requireFreeName :
    Leads circumstances (requireFreeName entry).run before fun result _ => Accountable result := by
  refine Leads.andThen (Leads.holds (nameKey_ne_nil _ _) (fun _ _ => id) ?_)
  simp only [Leads.Continues]
  split
  · exact Leads.fail id
  · exact Leads.give trivial

theorem accountable_requireFreeNames :
    Leads circumstances (requireFreeNames entries).run before fun result _ => Accountable result := by
  induction entries generalizing before with
  | nil => exact Leads.give trivial
  | cons entry rest inductionHypothesis =>
      exact Leads.thenAccountable accountable_requireFreeName fun _ _ => inductionHypothesis

theorem accountable_indexEntry :
    Leads circumstances (indexEntry entry).run before fun result _ => Accountable result := by
  refine Leads.thenAccountable (accountable_commitEntries (.name entry)) fun _ _ => ?_
  exact Leads.commitAccountable (by simp [Entry.recordWrite, Batch.put, Batch.empty])

theorem accountable_indexEntries :
    Leads circumstances (indexEntries entries) before fun result _ => Accountable result.2 := by
  induction entries generalizing before with
  | nil => exact Leads.pure trivial
  | cons entry rest inductionHypothesis =>
      refine Leads.bind accountable_indexEntry fun result between accountable => ?_
      cases result with
      | error error => exact Leads.pure accountable
      | ok => exact Leads.bind inductionHypothesis fun _ _ accountable => Leads.pure accountable

theorem accountable_writeEntry (mode : WriteMode) :
    Leads circumstances (writeEntry mode entry).run before fun result _ => Accountable result := by
  cases mode with
  | atomic => exact accountable_commitEntries (.whole entry)
  | independent =>
      refine Leads.thenAccountable accountable_requireFreeName fun _ _ => ?_
      refine Leads.thenAccountable ?_ fun _ _ => accountable_indexEntry
      exact Leads.commitAccountable (by simp [Entry.payloadWrite, Batch.put, Batch.empty])

theorem accountable_writeEntries (mode : WriteMode) :
    Leads circumstances (writeEntries mode entries) before
      fun result _ => Accountable result.2 := by
  cases mode with
  | atomic =>
      refine Leads.bind (accountable_commitEntries (.several entries)) ?_
      rintro (error | _) _ accountable
      · exact Leads.pure accountable
      · exact Leads.pure trivial
  | independent =>
      have payloads : Leads circumstances (do
          requireFreeNames entries
          Session.commit (Batch.join (entries.map Entry.payloadWrite))).run before
          fun result _ => Accountable result := by
        refine Leads.thenAccountable accountable_requireFreeNames fun _ _ => ?_
        refine Leads.commitAccountable fun region key value member => ?_
        rw [Batch.writes_join, List.mem_flatMap] at member
        obtain ⟨_, among, written⟩ := member
        obtain ⟨entry, _, rfl⟩ := List.mem_map.1 among
        exact absurd (List.mem_singleton.1 written) (by simp)
      refine Leads.bind payloads ?_
      rintro (error | _) _ accountable
      · exact Leads.pure accountable
      · exact accountable_indexEntries

/-- Storing an object fails for the object, for its name, or for the engine. -/
theorem accountable_create (object : Object) :
    Leads circumstances (bucket.create object).run before fun result _ => Accountable result := by
  refine Leads.thenAccountable (Leads.ofExcept (Accountable.invalid _)) fun entry _ => ?_
  refine Leads.thenAccountable (accountable_writeEntry _) fun _ _ => ?_
  exact Leads.andThen (Leads.emitIf (Leads.give trivial))

theorem accountable_prepareBatch (objects : List Object) :
    Accountable (bucket.prepareBatch objects) := by
  unfold prepareBatch
  cases prepareAll bucket.settings.requireContentType objects with
  | error error => exact id
  | ok entries =>
      dsimp only
      split
      · exact id
      · trivial

/-- Storing several objects fails for one of the objects, for its name, or for the engine. -/
theorem accountable_createBatch (objects : List Object) :
    Leads circumstances (bucket.createBatch objects) before
      fun creation _ => Accountable creation.result := by
  unfold createBatch
  split
  · exact Leads.pure trivial
  · have checked : Accountable (bucket.prepareBatch objects) := accountable_prepareBatch objects
    cases prepared : bucket.prepareBatch objects with
    | error error =>
        rw [prepared] at checked
        exact Leads.pure checked
    | ok entries =>
        refine Leads.bind (accountable_writeEntries _) ?_
        rintro ⟨count, error | _⟩ between accountable
        · exact Leads.pure accountable
        · have reported : Leads circumstances
              (bucket.report (.batchCreated entries.length)).run between fun _ _ => True :=
            Leads.emitIf trivial
          exact Leads.bind reported fun _ _ _ => Leads.pure trivial

end Bucket

end Depot
