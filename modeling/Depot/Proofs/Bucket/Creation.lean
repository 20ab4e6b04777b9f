import Depot.Bucket.Creation
import Depot.Proofs.Bucket.Entry
import Depot.Proofs.Session

/-!
# What storing objects does

Storing objects takes a store from its contents to contents in which some of the
objects, counted from the first, are stored completely. `Created` says which contents
these can be, whichever calls fail; in the independent mode the content of all objects
and the name of the next one may be there as well. If all are stored, both modes leave
the same contents.
-/

namespace Depot

namespace Contents

/-- Indexing entries one after the other: how many got their name and their record, and
what is left. At a failure the next entry may have got its name. -/
inductive Indexed : Contents → List Entry → Nat → Contents → Prop where
  | stopped (before : Contents) (entries : List Entry) : Indexed before entries 0 before
  | named {before : Contents} {entry : Entry} {rest : List Entry}
      (free : before.names.get? entry.nameKey = none) :
      Indexed before (entry :: rest) 0 (before.withName entry)
  | next {before after : Contents} {entry : Entry} {rest : List Entry} {count : Nat}
      (free : before.names.get? entry.nameKey = none)
      (indexed : Indexed ((before.withName entry).withRecord entry) rest count after) :
      Indexed before (entry :: rest) (count + 1) after

/-- Writing entries as the mode says: how many are stored completely, and what is
left. -/
inductive Written (mode : WriteMode) (before : Contents) (entries : List Entry) :
    Nat → Contents → Prop where
  | nothing : Written mode before entries 0 before
  | together (atomic : mode = .atomic) (admits : before.Admits entries) :
      Written mode before entries entries.length (before.withEntries entries)
  /-- The names were free, the content of all entries is written, then they are indexed. -/
  | apart {count : Nat} {after : Contents} (independent : mode = .independent)
      (indexed : (before.withPayloads entries).Indexed entries count after)
      (free : ∀ entry ∈ entries, before.names.get? entry.nameKey = none) :
      Written mode before entries count after

/-- Storing objects: how many are stored completely, and what is left. Nothing is written
unless all may be stored under different names. -/
inductive Created (bucket : Bucket) (before : Contents) (objects : List Object) :
    Nat → Contents → Prop where
  | refused : Created bucket before objects 0 before
  | written {count : Nat} {after : Contents}
      (storable : ∀ object ∈ objects, object.Storable bucket.settings.requireContentType)
      (distinct : ((objects.map Object.entry).map Entry.nameKey).Nodup)
      (written : before.Written bucket.settings.writeMode (objects.map Object.entry) count after) :
      Created bucket before objects count after

@[simp] theorem names_withPayloads (contents : Contents) (entries : List Entry) :
    (contents.withPayloads entries).names = contents.names := by
  induction entries generalizing contents with
  | nil => rfl
  | cons entry rest inductionHypothesis => exact inductionHypothesis (contents.withPayload entry)

@[simp] theorem records_withPayloads (contents : Contents) (entries : List Entry) :
    (contents.withPayloads entries).records = contents.records := by
  induction entries generalizing contents with
  | nil => rfl
  | cons entry rest inductionHypothesis => exact inductionHypothesis (contents.withPayload entry)

/-- Content under other keys is as it was before content was written. -/
theorem get?_payloads_withPayloads_of_ne {before : Contents} {entries : List Entry} {key : Bytes}
    (others : ∀ other ∈ entries, other.key ≠ key) :
    (before.withPayloads entries).payloads.get? key = before.payloads.get? key := by
  induction entries generalizing before with
  | nil => rfl
  | cons other rest inductionHypothesis =>
      obtain ⟨apart, othersRest⟩ := List.forall_mem_cons.1 others
      exact (@inductionHypothesis (before.withPayload other) othersRest).trans
        (OrderedMap.get?_insert_of_ne _ _ apart.symm)

/-- Content is written for an entry if no later one has its identity. -/
theorem get?_payloads_withPayloads {before : Contents} {entry : Entry} {front back : List Entry}
    (others : ∀ other ∈ back, other.identity ≠ entry.identity) :
    (before.withPayloads (front ++ entry :: back)).payloads.get? entry.key
      = some entry.payload := by
  rw [withPayloads, List.foldl_append, List.foldl_cons]
  have later : ∀ other ∈ back, other.key ≠ entry.key := fun other member same =>
    others other member (Uuid.key_injective same)
  exact (get?_payloads_withPayloads_of_ne later).trans (OrderedMap.get?_insert_self _ _ _)

/-- It does not matter whether an entry is indexed before or after content is written. -/
private theorem index_withPayloads (contents : Contents) (entries : List Entry) (entry : Entry) :
    ((contents.withPayloads entries).withName entry).withRecord entry
      = ((contents.withName entry).withRecord entry).withPayloads entries := by
  induction entries generalizing contents with
  | nil => rfl
  | cons head rest inductionHypothesis => exact inductionHypothesis (contents.withPayload head)

/-- Entries that are all indexed had free names, and they leave what they would have left
if each had been written completely before the next. -/
theorem Indexed.all {before after : Contents} {entries : List Entry}
    (indexed : (before.withPayloads entries).Indexed entries entries.length after) :
    before.Admits entries ∧ after = before.withEntries entries := by
  induction entries generalizing before with
  | nil =>
      cases indexed
      exact ⟨⟨by simp, .nil⟩, rfl⟩
  | cons entry rest inductionHypothesis =>
      cases indexed with
      | next free indexed =>
          rw [names_withPayloads] at free
          -- indexing does not touch content, so the entry may as well have been completed first
          have shifted : ((before.withPayloads (entry :: rest)).withName entry).withRecord entry
              = (before.withEntry entry).withPayloads rest :=
            index_withPayloads (before.withPayload entry) rest entry
          rw [shifted] at indexed
          obtain ⟨admits, left⟩ := inductionHypothesis indexed
          exact ⟨Admits.of_withName ⟨admits.free, admits.distinct⟩ free, left⟩

/-- Entries with free names that differ can all be indexed, which leaves what writing each
completely would have left. -/
theorem Admits.indexed {before : Contents} {entries : List Entry} (admits : before.Admits entries) :
    (before.withPayloads entries).Indexed entries entries.length (before.withEntries entries) := by
  induction entries generalizing before with
  | nil => exact .stopped before []
  | cons entry rest inductionHypothesis =>
      obtain ⟨free, admitsRest⟩ := admits.withEntry
      have shifted : ((before.withPayloads (entry :: rest)).withName entry).withRecord entry
          = (before.withEntry entry).withPayloads rest :=
        index_withPayloads (before.withPayload entry) rest entry
      refine .next ?_ (shifted ▸ inductionHypothesis admitsRest)
      rwa [names_withPayloads]

/-- No more entries are indexed than there are. -/
theorem Indexed.count_le {before after : Contents} {entries : List Entry} {count : Nat}
    (indexed : before.Indexed entries count after) : count ≤ entries.length := by
  induction indexed with
  | stopped => exact Nat.zero_le _
  | named => exact Nat.zero_le _
  | next _ _ inductionHypothesis => exact Nat.succ_le_succ inductionHypothesis

theorem Written.count_le {mode : WriteMode} {before after : Contents} {entries : List Entry}
    {count : Nat} (written : before.Written mode entries count after) : count ≤ entries.length := by
  cases written with
  | nothing => exact Nat.zero_le _
  | together => exact Nat.le_refl _
  | apart _ indexed => exact indexed.count_le

/-- In either mode nothing is written, or the content of all entries is written and entries
are indexed. -/
theorem Written.indexed {mode : WriteMode} {before after : Contents} {entries : List Entry}
    {count : Nat} (written : before.Written mode entries count after) :
    count = 0 ∧ after = before ∨ (before.withPayloads entries).Indexed entries count after := by
  cases written with
  | nothing => exact .inl ⟨rfl, rfl⟩
  | together _ admits => exact .inr admits.indexed
  | apart _ indexed => exact .inr indexed

/-- In either mode nothing is written where a name is held. -/
theorem Written.free {mode : WriteMode} {before after : Contents} {entries : List Entry}
    {count : Nat} (written : before.Written mode entries count after) :
    after = before ∨ ∀ entry ∈ entries, before.names.get? entry.nameKey = none := by
  cases written with
  | nothing => exact .inl rfl
  | together _ admits => exact .inr admits.free
  | apart _ _ free => exact .inr free

/-- Entries that are all stored had free names, and both modes leave the same contents. -/
theorem Written.all {mode : WriteMode} {before after : Contents} {entries : List Entry}
    (written : before.Written mode entries entries.length after) :
    before.Admits entries ∧ after = before.withEntries entries := by
  generalize size : entries.length = count at written
  cases written with
  | nothing =>
      obtain rfl := List.length_eq_zero_iff.1 size
      exact ⟨⟨by simp, .nil⟩, rfl⟩
  | together _ admits => exact ⟨admits, rfl⟩
  | apart _ indexed =>
      subst size
      exact indexed.all

/-- Storing objects changes nothing, or objects that may be stored under different names have
their content written and are indexed. -/
theorem Created.indexed {bucket : Bucket} {before after : Contents} {objects : List Object}
    {count : Nat} (created : before.Created bucket objects count after) :
    count = 0 ∧ after = before ∨
      (∀ object ∈ objects, object.Storable bucket.settings.requireContentType) ∧
        ((objects.map Object.entry).map Entry.nameKey).Nodup ∧
        (before.withPayloads (objects.map Object.entry)).Indexed (objects.map Object.entry) count
          after := by
  cases created with
  | refused => exact .inl ⟨rfl, rfl⟩
  | written storable distinct written =>
      exact written.indexed.imp_right fun indexed => ⟨storable, distinct, indexed⟩

/-- Storing objects changes nothing where a name is held. -/
theorem Created.free {bucket : Bucket} {before after : Contents} {objects : List Object}
    {count : Nat} (created : before.Created bucket objects count after) :
    after = before ∨ ∀ object ∈ objects, before.names.get? object.entry.nameKey = none := by
  cases created with
  | refused => exact .inl rfl
  | written _ _ written => exact written.free.imp_right List.forall_mem_map.1

/-- Objects that are all stored had free names and leave their entries. -/
theorem Created.all {bucket : Bucket} {before after : Contents} {objects : List Object}
    (created : before.Created bucket objects objects.length after) :
    before.Admits (objects.map Object.entry) ∧
      after = before.withEntries (objects.map Object.entry) := by
  generalize size : objects.length = count at created
  cases created with
  | refused =>
      obtain rfl := List.length_eq_zero_iff.1 size
      exact ⟨⟨by simp, .nil⟩, rfl⟩
  | written _ _ written =>
      rw [← size, ← List.length_map (f := Object.entry)] at written
      exact written.all

end Contents

namespace Bucket

variable {circumstances : Circumstances} {before : Contents} {bucket : Bucket}

/-- A commit of entries ends as the commit of their batch, but its failure is told in terms of the
entries. -/
theorem run_commitEntries_eq (entries : List Entry) (batch : Batch) (store : Store) :
    (commitEntries entries batch).run.run store
      = (match ((Session.commit batch).run.run store).1 with
          | .ok () => .ok ()
          | .error error => .error (Entry.explain entries error),
        ((Session.commit batch).run.run store).2) := by
  have attempted : (Session.attempt (Session.commit batch)).run.run store
      = (.ok ((Session.commit batch).run.run store).1,
        ((Session.commit batch).run.run store).2) := rfl
  rw [commitEntries, run_bind, attempted]
  rcases (Session.commit batch).run.run store with ⟨error | _, after⟩
  · rfl
  · rfl

/-- A batch of entries is committed as a whole or not at all. -/
theorem leads_commitEntries {entries : List Entry} {batch : Batch}
    {outcome : Except StoreError Unit → Contents → Prop}
    (refused : circumstances.mayRefuse → ∀ reason, outcome (.error (.engine reason)) before)
    (failed : ∀ error, before.commit circumstances.keyRule batch = .error error →
      outcome (.error (Entry.explain entries error)) before)
    (done : ∀ after, before.commit circumstances.keyRule batch = .ok after →
      outcome (.ok ()) after) :
    Leads circumstances (commitEntries entries batch).run before outcome := by
  refine Leads.andThen (Leads.attempt (Leads.commit ?_ ?_ ?_))
  · exact fun may reason => Leads.fail (refused may reason)
  · exact fun error failure => Leads.fail (failed error failure)
  · exact fun after committed => Leads.give (done after committed)

/-- The name of an entry must be free. -/
theorem leads_requireFreeName {entry : Entry} :
    Leads circumstances (requireFreeName entry).run before fun result after =>
      after = before ∧ (result = .ok () → before.names.get? entry.nameKey = none) := by
  refine Leads.andThen (Leads.holds (nameKey_ne_nil _ _) (fun _ _ => ⟨rfl, by simp⟩) ?_)
  simp only [Leads.Continues]
  split
  · exact Leads.fail ⟨rfl, by simp⟩
  · rename_i free
    exact Leads.give ⟨rfl, fun _ => Option.not_isSome_iff_eq_none.1 free⟩

/-- What indexing an entry leads to. -/
theorem leads_indexEntry {entry : Entry} :
    Leads circumstances (indexEntry entry).run before fun result after =>
      ∃ count, before.Indexed [entry] count after ∧ (result = .ok () ↔ count = 1) := by
  have stays : ∀ error : StoreError, ∃ count, before.Indexed [entry] count before ∧
      ((.error error : Except StoreError Unit) = .ok () ↔ count = 1) := fun error =>
    ⟨0, .stopped before [entry], by simp⟩
  refine Leads.andThen (leads_commitEntries (fun _ _ => stays _) (fun _ _ => stays _) ?_)
  intro between committed
  obtain ⟨free, rfl⟩ := Contents.commit_nameWrite committed
  have halfway : ∀ error : StoreError, ∃ count,
      before.Indexed [entry] count (before.withName entry) ∧
        ((.error error : Except StoreError Unit) = .ok () ↔ count = 1) := fun error =>
    ⟨0, .named free, by simp⟩
  simp only [Leads.Continues]
  refine Leads.commit (fun _ _ => halfway _) (fun _ _ => halfway _) ?_
  intro after committed
  obtain rfl := Contents.commit_recordWrite committed
  exact ⟨1, .next free (.stopped _ []), by simp⟩

/-- What indexing entries leads to. -/
theorem leads_indexEntries {entries : List Entry} :
    Leads circumstances (indexEntries entries) before fun result after =>
      before.Indexed entries result.1 after ∧ (result.2 = .ok () ↔ result.1 = entries.length) := by
  induction entries generalizing before with
  | nil => exact Leads.pure ⟨.stopped _ _, by simp⟩
  | cons entry rest inductionHypothesis =>
      refine Leads.bind leads_indexEntry fun result between reached => ?_
      obtain ⟨count, indexed, complete⟩ := reached
      cases result with
      | error error =>
          -- indexing ends here, with the name of this entry or without it
          have none : count ≠ 1 := fun one => by simpa using complete.2 one
          refine Leads.pure ?_
          cases indexed with
          | stopped => exact ⟨.stopped _ _, by simp⟩
          | named free => exact ⟨.named free, by simp⟩
          | next _ tail =>
              cases tail
              exact absurd rfl none
      | ok =>
          obtain rfl := complete.1 rfl
          cases indexed with
          | next free tail =>
              cases tail
              refine Leads.bind inductionHypothesis fun result after reached => Leads.pure ?_
              exact ⟨.next free reached.1, by simp [reached.2]⟩

/-- The names of entries must be free. -/
theorem leads_requireFreeNames {entries : List Entry} :
    Leads circumstances (requireFreeNames entries).run before fun result after =>
      after = before ∧
        (result = .ok () → ∀ entry ∈ entries, before.names.get? entry.nameKey = none) := by
  induction entries with
  | nil => exact Leads.give ⟨rfl, by simp⟩
  | cons entry rest inductionHypothesis =>
      refine Leads.follow leads_requireFreeName (fun _ _ reached => ⟨reached.1, by simp⟩) ?_
      rintro _ _ ⟨rfl, free⟩
      refine inductionHypothesis.mono fun result after reached => ⟨reached.1, fun done => ?_⟩
      exact List.forall_mem_cons.2 ⟨free rfl, reached.2 done⟩

/-- What writing one entry leads to. -/
theorem leads_writeEntry {mode : WriteMode} {entry : Entry} :
    Leads circumstances (writeEntry mode entry).run before fun result after =>
      ∃ count, before.Written mode [entry] count after ∧ (result = .ok () ↔ count = 1) := by
  have stays : ∀ error : StoreError, ∃ count, before.Written mode [entry] count before ∧
      ((.error error : Except StoreError Unit) = .ok () ↔ count = 1) := fun error =>
    ⟨0, .nothing, by simp⟩
  cases mode with
  | atomic =>
      refine leads_commitEntries (fun _ _ => stays _) (fun _ _ => stays _) fun after committed => ?_
      obtain ⟨free, rfl⟩ := Contents.commit_fullWrite committed
      exact ⟨1, .together rfl ⟨by simpa using free, by simp⟩, by simp⟩
  | independent =>
      refine Leads.follow leads_requireFreeName ?_ ?_
      · rintro error _ ⟨rfl, _⟩
        exact stays error
      rintro _ _ ⟨rfl, free⟩
      refine Leads.andThen (Leads.commit (fun _ _ => stays _) (fun _ _ => stays _) ?_)
      intro between committed
      obtain rfl := Contents.commit_payloadWrite committed
      refine leads_indexEntry.mono fun result after reached => ?_
      obtain ⟨count, indexed, complete⟩ := reached
      exact ⟨count, .apart rfl indexed (by simpa using free rfl), complete⟩

/-- What committing entries as a whole leads to. -/
theorem leads_fullWrites {entries : List Entry} :
    Leads circumstances (commitEntries entries (Batch.join (entries.map Entry.fullWrite))).run
      before fun result after =>
        match result with
        | .ok () => before.Admits entries ∧ after = before.withEntries entries
        | .error _ => after = before :=
  leads_commitEntries (fun _ _ => rfl) (fun _ _ => rfl) fun _ => Contents.commit_fullWrites

/-- What committing the content of entries leads to, if their names must be free. -/
theorem leads_payloadWrites {entries : List Entry} :
    Leads circumstances (do
      requireFreeNames entries
      Session.commit (Batch.join (entries.map Entry.payloadWrite))).run before fun result after =>
        match result with
        | .ok () => after = before.withPayloads entries ∧
            ∀ entry ∈ entries, before.names.get? entry.nameKey = none
        | .error _ => after = before := by
  refine Leads.follow leads_requireFreeNames (fun _ _ reached => reached.1) ?_
  rintro _ _ ⟨rfl, free⟩
  refine Leads.commit (fun _ _ => rfl) (fun _ _ => rfl) fun _ committed => ?_
  exact ⟨Contents.commit_payloadWrites committed, free rfl⟩

/-- What writing several entries leads to. -/
theorem leads_writeEntries {mode : WriteMode} {entries : List Entry} (present : entries ≠ []) :
    Leads circumstances (writeEntries mode entries) before fun result after =>
      before.Written mode entries result.1 after ∧
        (result.2 = .ok () ↔ result.1 = entries.length) := by
  have size : 0 ≠ entries.length := fun zero => present (List.length_eq_zero_iff.1 zero.symm)
  have stays : ∀ error : StoreError, before.Written mode entries 0 before ∧
      ((.error error : Except StoreError Unit) = .ok () ↔ 0 = entries.length) := fun error =>
    ⟨.nothing, by simp [size]⟩
  cases mode with
  | atomic =>
      refine Leads.bind leads_fullWrites fun result between reached => ?_
      cases result with
      | error error =>
          obtain rfl := reached
          exact Leads.pure (stays error)
      | ok =>
          obtain ⟨admits, rfl⟩ := reached
          exact Leads.pure ⟨.together rfl admits, by simp⟩
  | independent =>
      refine Leads.bind leads_payloadWrites fun result between reached => ?_
      cases result with
      | error error =>
          obtain rfl := reached
          exact Leads.pure (stays error)
      | ok =>
          obtain ⟨rfl, free⟩ := reached
          refine leads_indexEntries.mono fun result after reached => ?_
          exact ⟨.apart rfl reached.1 free, reached.2⟩

/-- What storing an object leads to. The object that comes back is the one that was
stored, and it is sealed. -/
theorem leads_create {object : Object} :
    Leads circumstances (bucket.create object).run before fun result after =>
      ∃ count, before.Created bucket [object] count after ∧
        match result with
        | .ok stored => count = 1 ∧ stored = object.sealed
        | .error _ => count = 0 := by
  refine Leads.andThen (Leads.ofExcept ?_)
  cases prepared : Entry.prepare bucket.settings.requireContentType object with
  | error error => exact ⟨0, .refused, rfl⟩
  | ok entry =>
      obtain ⟨storable, rfl⟩ := Entry.prepare_eq_ok_iff.1 prepared
      refine Leads.follow leads_writeEntry ?_ ?_
      · rintro error after ⟨count, written, complete⟩
        have bound : count ≤ 1 := written.count_le
        have none : count ≠ 1 := fun one => by simpa using complete.2 one
        exact ⟨count, .written (by simpa using storable) (by simp) written, by omega⟩
      · rintro _ after ⟨count, written, complete⟩
        have stored : ∃ count, before.Created bucket [object] count after ∧
            count = 1 ∧ object.sealed = object.sealed :=
          ⟨count, .written (by simpa using storable) (by simp) written, complete.1 rfl, rfl⟩
        exact Leads.andThen (Leads.emitIf (Leads.give stored))

/-- All objects are prepared exactly if all may be stored. -/
theorem prepareAll_eq_ok_iff {requireContentType : Bool} {objects : List Object}
    {entries : List Entry} :
    prepareAll requireContentType objects = .ok entries ↔
      (∀ object ∈ objects, object.Storable requireContentType) ∧
        objects.map Object.entry = entries := by
  induction objects generalizing entries with
  | nil => simp [prepareAll]
  | cons object rest inductionHypothesis =>
      rw [prepareAll]
      cases prepared : Entry.prepare requireContentType object with
      | error error =>
          have refused : ¬ object.Storable requireContentType := fun storable =>
            absurd (Entry.prepare_eq_ok_iff.2 ⟨storable, rfl⟩) (by simp [prepared])
          simp [refused]
      | ok entry =>
          obtain ⟨storable, rfl⟩ := Entry.prepare_eq_ok_iff.1 prepared
          cases others : prepareAll requireContentType rest with
          | error error =>
              have refused : ¬ ∀ object ∈ rest, object.Storable requireContentType := fun all =>
                absurd (inductionHypothesis.2 ⟨all, rfl⟩) (by simp [others])
              simp [refused]
          | ok tail =>
              obtain ⟨all, rfl⟩ := inductionHypothesis.1 others
              simpa [storable] using fun _ => all

/-- A batch is prepared exactly if all objects may be stored under different names. -/
theorem prepareBatch_eq_ok_iff {objects : List Object} {entries : List Entry} :
    bucket.prepareBatch objects = .ok entries ↔
      (∀ object ∈ objects, object.Storable bucket.settings.requireContentType) ∧
        ((objects.map Object.entry).map Entry.nameKey).Nodup ∧
        objects.map Object.entry = entries := by
  unfold prepareBatch
  cases prepared : prepareAll bucket.settings.requireContentType objects with
  | error error =>
      have refused : ¬ ∀ object ∈ objects, object.Storable bucket.settings.requireContentType :=
        fun all => absurd (prepareAll_eq_ok_iff.2 ⟨all, rfl⟩) (by simp [prepared])
      simp [refused]
  | ok entries =>
      obtain ⟨all, rfl⟩ := prepareAll_eq_ok_iff.1 prepared
      cases repeated : Entry.firstRepeated [] (objects.map Object.entry) with
      | some entry =>
          have unfit : ¬ ((objects.map Object.entry).map Entry.nameKey).Nodup := by
            intro distinct
            have none : Entry.firstRepeated [] (objects.map Object.entry) = none :=
              Entry.firstRepeated_eq_none_iff.2 ⟨by simp, distinct⟩
            simp [none] at repeated
          exact ⟨fun failed => absurd failed (by simp [repeated]), fun fit => absurd fit.2.1 unfit⟩
      | none =>
          have distinct := (Entry.firstRepeated_eq_none_iff.1 repeated).2
          simp only [repeated, Except.ok.injEq]
          exact ⟨fun same => ⟨all, distinct, same⟩, fun fit => fit.2.2⟩

/-- What storing several objects leads to. They come back, those that were stored being
sealed. -/
theorem leads_createBatch {objects : List Object} :
    Leads circumstances (bucket.createBatch objects) before fun creation after =>
      ∃ count, before.Created bucket objects count after ∧
        creation.objects = (objects.take count).map Object.sealed ++ objects.drop count ∧
        ∀ identities, creation.result = .ok identities →
          count = objects.length ∧ identities = objects.map Object.identity := by
  unfold createBatch
  cases objects with
  | nil => exact Leads.pure ⟨0, .refused, by simp⟩
  | cons object rest =>
      generalize size : object :: rest = objects
      have present : objects.map Object.entry ≠ [] := by simp [← size]
      rw [if_neg (by simp [← size])]
      cases prepared : bucket.prepareBatch objects with
      | error error => exact Leads.pure ⟨0, .refused, by simp⟩
      | ok entries =>
          obtain ⟨storable, distinct, rfl⟩ := prepareBatch_eq_ok_iff.1 prepared
          refine Leads.bind (leads_writeEntries present) fun result between reached => ?_
          obtain ⟨written, complete⟩ := reached
          obtain ⟨count, outcome⟩ := result
          have created : before.Created bucket objects count between :=
            .written storable distinct written
          cases outcome with
          | error error => exact Leads.pure ⟨count, created, rfl, by simp⟩
          | ok =>
              have all : count = objects.length := by simpa using complete.1 rfl
              have reported : Leads circumstances
                  (bucket.report (.batchCreated (objects.map Object.entry).length)).run between
                  fun _ after => after = between := Leads.emitIf rfl
              refine Leads.bind reported ?_
              rintro _ _ rfl
              refine Leads.pure ⟨count, created, rfl, fun identities done => ⟨all, ?_⟩⟩
              rw [← Except.ok.inj done, List.map_map]
              rfl

/-- An object that is reported as stored might be, its name was free, and its entry is left. -/
theorem create_eq_ok {store : Store} {object stored : Object} (alone : store.hazard.IsAlone)
    (done : ((bucket.create object).run.run store).1 = .ok stored) :
    object.Storable bucket.settings.requireContentType ∧
      store.contents.names.get? object.entry.nameKey = none ∧
      ((bucket.create object).run.run store).2.contents
        = store.contents.withEntry object.entry := by
  obtain ⟨count, created, rfl, _⟩ := leads_create.outcome_of_run alone done
  obtain ⟨admits, left⟩ := created.all
  rcases created.indexed with ⟨nothing, _⟩ | ⟨storable, _⟩
  · exact absurd nothing (by simp)
  · exact ⟨storable object List.mem_cons_self, admits.free _ List.mem_cons_self, left⟩

/-- Several objects that are reported as stored might be, under different free names, and their
entries are left. -/
theorem createBatch_eq_ok {store : Store} {objects : List Object} {identities : List Uuid}
    (alone : store.hazard.IsAlone)
    (done : ((bucket.createBatch objects).run store).1.result = .ok identities) :
    (∀ object ∈ objects, object.Storable bucket.settings.requireContentType) ∧
      store.contents.Admits (objects.map Object.entry) ∧
      ((bucket.createBatch objects).run store).2.contents
        = store.contents.withEntries (objects.map Object.entry) := by
  obtain ⟨count, created, _, given⟩ := leads_createBatch.outcome_of_run alone rfl
  obtain ⟨rfl, _⟩ := given _ done
  obtain ⟨admits, left⟩ := created.all
  refine ⟨?_, admits, left⟩
  rcases created.indexed with ⟨nothing, _⟩ | ⟨storable, _⟩
  · obtain rfl := List.length_eq_zero_iff.1 nothing
    exact fun _ member => absurd member List.not_mem_nil
  · exact storable

end Bucket

end Depot
