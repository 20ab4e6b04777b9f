import Depot.Proofs.Bucket.Selecting
import Depot.Proofs.Bucket.Streaming
import Depot.Proofs.Consistency.Records
import Depot.Proofs.Session.Footprint

/-!
# What a bucket uses of its engine

Objects are looked at and removed under the keys of their identities, and selections visit the
metadata region. Names are looked up under the key of the name that is asked for, with the owner
in canonical form, and are looked up and removed under the keys that records claim. The writes of
a creation are those of its entries. So an operation keeps to a footprint that allows these keys,
whichever calls are refused on the way.
-/

namespace Depot

/-- A footprint allows what is done under the keys of identities. -/
structure Footprint.CoversIdentities (footprint : Footprint) : Prop where
  looks : ∀ region, region ≠ .name → ∀ identity : Uuid, footprint.looks region identity.key
  deletes : ∀ region, region ≠ .name → ∀ identity : Uuid,
    footprint.writes (.delete region identity.key)
  visits : footprint.visits .metadata

/-- A footprint allows what is done under the key of a name that is there. -/
structure Footprint.CoversName (footprint : Footprint) (key : Bytes) : Prop where
  looks : footprint.looks .name key
  deletes : footprint.writes (.delete .name key)

/-- A footprint allows an entry to be written. -/
structure Footprint.CoversEntry (footprint : Footprint) (entry : Entry) : Prop where
  looks : footprint.looks .name entry.nameKey
  writes : ∀ write ∈ entry.fullWrite.writes, footprint.writes write

namespace Footprint.CoversEntry

variable {footprint : Footprint} {entry : Entry}

theorem nameWrite (covers : footprint.CoversEntry entry) :
    ∀ write ∈ entry.nameWrite.writes, footprint.writes write := fun write member =>
  covers.writes write (List.mem_append_left _ (List.mem_append_left _ member))

theorem payloadWrite (covers : footprint.CoversEntry entry) :
    ∀ write ∈ entry.payloadWrite.writes, footprint.writes write := fun write member =>
  covers.writes write (List.mem_append_left _ (List.mem_append_right _ member))

theorem recordWrite (covers : footprint.CoversEntry entry) :
    ∀ write ∈ entry.recordWrite.writes, footprint.writes write := fun write member =>
  covers.writes write (List.mem_append_right _ member)

end Footprint.CoversEntry

variable {α β : Type} {circumstances : Circumstances} {footprint : Footprint} {before : Contents}
  {bucket : Bucket} {entry : Entry} {entries : List Entry}

/-- What may be written for each of several entries may be written for all together. -/
theorem Batch.forall_mem_join {part : Entry → Batch} {may : Write → Prop}
    (each : ∀ entry ∈ entries, ∀ write ∈ (part entry).writes, may write) :
    ∀ write ∈ (Batch.join (entries.map part)).writes, may write := by
  intro write member
  rw [Batch.writes_join, List.flatMap_map] at member
  obtain ⟨entry, among, written⟩ := List.mem_flatMap.1 member
  exact each entry among write written

namespace Uses

/-- A session after a look. -/
theorem afterLook {session : Session α} {rest : α → Session β} {value : Except StoreError α}
    (first : Uses circumstances footprint session.run before)
    (shows : Leads circumstances session.run before (Shows circumstances before value))
    (second : ∀ found, value = .ok found → Uses circumstances footprint (rest found).run before) :
    Uses circumstances footprint (session >>= rest).run before := by
  refine follow first shows ?_
  rintro found _ shown
  obtain rfl := shown.1
  exact second found shown.eq_of_ok

/-- A value after a report. -/
theorem reportThen (bucket : Bucket) (event : Event) (value : α) :
    Uses circumstances footprint (do bucket.report event; return value : Session α).run before :=
  afterLook (emitIf _ event) (Leads.emitIf (Shows.of_eq _)) fun _ _ => give value

theorem holds {region : Region} {key : Bytes} (present : key ≠ [])
    (may : footprint.looks region key) :
    Uses circumstances footprint (Session.holds region key).run before :=
  afterLook (value? may) (Leads.value? present Shows.refused (Shows.of_eq _)) fun _ _ => give _

end Uses

namespace Contents

/-- The names that the records of these identities claim have keys of a kind. -/
def ClaimsOnly (contents : Contents) (identities : List Uuid) (kind : Bytes → Prop) : Prop :=
  ∀ identity ∈ identities, ∀ metadata, contents.metadataOf identity = .ok metadata →
    ∀ key, Bucket.claimedName metadata = some key → kind key

/-- No more names are claimed once objects are removed. -/
theorem ClaimsOnly.within {after : Contents} {identities : List Uuid} {kind : Bytes → Prop}
    (claims : before.ClaimsOnly identities kind) (within : after.RecordsWithin before) :
    after.ClaimsOnly identities kind := by
  intro identity among metadata found
  obtain ⟨record, held, read⟩ := metadataOf_eq_ok_iff.1 found
  exact claims identity among metadata
    (metadataOf_eq_ok_iff.2 ⟨record, within identity.key record held, read⟩)

/-- No more names are claimed by fewer objects. -/
theorem ClaimsOnly.mono {identities fewer : List Uuid} {kind : Bytes → Prop}
    (claims : before.ClaimsOnly identities kind) (among : fewer ⊆ identities) :
    before.ClaimsOnly fewer kind :=
  fun identity member => claims identity (among member)

end Contents

namespace Bucket

theorem uses_require (missing : StoreError) (value : Option α) :
    Uses circumstances footprint (require missing value).run before := by
  cases value with
  | none => exact .fail missing
  | some value => exact .give value

/-! ## Looks by identity -/

theorem uses_metadata (covers : footprint.CoversIdentities) (identity : Uuid) :
    Uses circumstances footprint (bucket.metadata identity).run before := by
  refine .afterLook (.value? (covers.looks .metadata (by decide) identity))
    (Leads.value? identity.key_ne_nil Shows.refused (Shows.of_eq _)) fun value _ => ?_
  exact .afterLook (uses_require _ value) (leads_require _ value) fun _ _ => .ofExcept _

theorem uses_payload (covers : footprint.CoversIdentities) (identity : Uuid) :
    Uses circumstances footprint (bucket.payload identity).run before :=
  .afterLook (.value? (covers.looks .payload (by decide) identity))
    (Leads.value? identity.key_ne_nil Shows.refused (Shows.of_eq _))
    fun value _ => uses_require _ value

theorem uses_fetch (covers : footprint.CoversIdentities) (identity : Uuid) :
    Uses circumstances footprint (bucket.fetch identity).run before := by
  refine .afterLook (uses_metadata covers identity) (leads_metadata identity) fun metadata _ => ?_
  refine .afterLook (uses_payload covers identity) (leads_payload identity) fun payload _ => ?_
  refine .afterLook (.ofExcept _) (Leads.ofExcept (Shows.of_eq _)) fun object _ => ?_
  exact .reportThen bucket _ object

theorem uses_isEmpty (covers : footprint.CoversIdentities) :
    Uses circumstances footprint bucket.isEmpty.run before :=
  .afterLook (.count covers.visits) leads_size fun _ _ => .give _

theorem uses_stream (covers : footprint.CoversIdentities) (identity : Uuid) (sink : Sink) :
    Uses circumstances footprint (bucket.stream identity sink) before := by
  have shown : Uses circumstances footprint (bucket.contentToStream identity).run before := by
    refine .afterLook (uses_metadata covers identity) (leads_metadata identity) fun _ _ => ?_
    refine .afterLook (.view? (covers.looks .payload (by decide) identity))
      (Leads.view? identity.key_ne_nil Shows.refused (Shows.of_eq _)) ?_
    exact fun value _ => uses_require _ value
  refine .bind shown (leads_contentToStream identity) fun result between _ => ?_
  cases result with
  | error error => exact .pure _
  | ok content =>
      dsimp only
      split
      · exact .pure _
      · split
        · exact .pure _
        · exact .bind (.emitIf _ _) (@Leads.emitIf _ _ _ _ (fun _ _ => True) trivial)
            fun _ _ _ => .pure _

/-! ## Looks by name -/

/-- A name with an owner in any spelling is looked up under the key with the canonical one. -/
theorem uses_resolve {name owner : String}
    (looks : ∀ canonical, Uuid.normalise Metadata.Key.owner.text owner = .ok canonical →
      name.utf8ByteSize ≤ Object.nameLimit → footprint.looks .name (nameKey name canonical)) :
    Uses circumstances footprint (bucket.resolve name owner).run before := by
  refine .afterLook (.ofExcept _) (Leads.ofExcept (Shows.of_eq _)) fun canonical accepted => ?_
  split
  · exact .afterLook (.fail _) (Leads.fail (Shows.of_eq _)) fun _ impossible =>
      absurd impossible (by simp)
  · rename_i short
    have may := looks canonical (mapError_eq_ok_iff.1 accepted) (Nat.not_lt.1 short)
    refine .afterLook (.value? may)
      (Leads.value? (nameKey_ne_nil name canonical) Shows.refused (Shows.of_eq _)) ?_
    intro value _
    exact .afterLook (uses_require _ value) (leads_require _ value) fun _ _ => .ofExcept _

theorem uses_fetchNamed (covers : footprint.CoversIdentities) {name owner : String}
    (looks : ∀ canonical, Uuid.normalise Metadata.Key.owner.text owner = .ok canonical →
      name.utf8ByteSize ≤ Object.nameLimit → footprint.looks .name (nameKey name canonical)) :
    Uses circumstances footprint (bucket.fetchNamed name owner).run before :=
  .afterLook (uses_resolve looks) (leads_resolve name owner)
    fun identity _ => uses_fetch covers identity

/-! ## Selections -/

theorem uses_select (covers : footprint.CoversIdentities) (selection : Selection) :
    Uses circumstances footprint (bucket.select selection).run before := by
  refine .afterLook (.ofExcept _) (Leads.ofExcept (Shows.of_eq _)) fun _ _ => ?_
  exact .scan covers.visits (.ofExcept _) (@Leads.ofExcept _ _ _ _ (fun _ _ => True) trivial)

theorem uses_fetchEach (covers : footprint.CoversIdentities) (identities : List Uuid) :
    Uses circumstances footprint (bucket.fetchEach identities).run before := by
  induction identities with
  | nil => exact .give []
  | cons identity rest inductionHypothesis =>
      refine .attempt (uses_fetch covers identity) (leads_fetch identity) ?_
      intro result between shown
      obtain rfl := shown.1
      cases result with
      | ok object =>
          exact .afterLook inductionHypothesis (leads_fetchEach rest) fun _ _ => .give _
      | error error =>
          dsimp only
          split
          · exact .afterLook (.emit _) (Leads.emit (Shows.of_eq _)) fun _ _ => inductionHypothesis
          · exact .fail error

theorem uses_fetchReported (covers : footprint.CoversIdentities) (identities : List Uuid)
    (connective : Connective) :
    Uses circumstances footprint (do
      let objects ← bucket.fetchEach identities
      bucket.report (.selectionFetched objects.length connective)
      return objects : Session (List Object)).run before :=
  .afterLook (uses_fetchEach covers identities) (leads_fetchEach identities)
    fun objects _ => .reportThen bucket _ objects

theorem uses_fetchSelected (covers : footprint.CoversIdentities) (selection : Selection) :
    Uses circumstances footprint (bucket.fetchSelected selection).run before :=
  .afterLook (uses_select covers selection) (leads_select selection)
    fun identities _ => uses_fetchReported covers identities selection.connective

/-! ## Deletions -/

theorem uses_nameRemoval {identity : Uuid} {metadata : Metadata}
    (names : ∀ key, claimedName metadata = some key → footprint.CoversName key) :
    Uses circumstances footprint (nameRemoval identity metadata).run before := by
  unfold nameRemoval
  cases claimed : claimedName metadata with
  | none => exact .give _
  | some key =>
      refine .afterLook (.value? (names key claimed).looks)
        (Leads.value? (ne_nil_of_claimedName claimed) Shows.refused (Shows.of_eq _)) ?_
      intro holder _
      split
      · exact .give _
      · exact .give _

/-- A name is removed under the key that the record claims. -/
theorem writes_of_mem_nameRemoval {identity : Uuid} {metadata : Metadata}
    (names : ∀ key, claimedName metadata = some key → footprint.CoversName key) :
    ∀ write ∈ (before.nameRemoval identity metadata).writes, footprint.writes write := by
  intro write member
  unfold Contents.nameRemoval at member
  cases claimed : claimedName metadata with
  | none =>
      rw [claimed] at member
      exact absurd member List.not_mem_nil
  | some key =>
      simp only [claimed] at member
      split at member
      · obtain rfl := List.mem_singleton.1 member
        exact (names key claimed).deletes
      · exact absurd member List.not_mem_nil

theorem uses_delete (covers : footprint.CoversIdentities) {identity : Uuid}
    (names : before.ClaimsOnly [identity] footprint.CoversName) :
    Uses circumstances footprint (bucket.delete identity).run before := by
  have removable : ∀ region, region ≠ .name →
      ∀ write ∈ (Batch.empty.delete region identity.key).writes, footprint.writes write := by
    intro region apart write member
    obtain rfl := List.mem_singleton.1 member
    exact covers.deletes region apart identity
  have removePayload := removable .payload (by decide)
  have removeRecord := removable .metadata (by decide)
  refine .afterLook (uses_metadata covers identity) (leads_metadata identity) ?_
  intro metadata found
  have claimed := names identity List.mem_cons_self metadata found
  refine .afterLook (uses_nameRemoval claimed) (leads_nameRemoval identity metadata) ?_
  intro removal shown
  obtain rfl := Except.ok.inj shown
  have removeName := @writes_of_mem_nameRemoval footprint before identity metadata claimed
  cases bucket.settings.writeMode with
  | atomic =>
      refine .commitThen (fun write member => ?_) fun _ => .emitIf _ _
      rcases List.mem_append.1 member with earlier | last
      · rcases List.mem_append.1 earlier with first | second
        · exact removeName write first
        · exact removePayload write second
      · exact removeRecord write last
  | independent =>
      have rest : ∀ between, Uses circumstances footprint (do
          Session.commit (Batch.empty.delete .payload identity.key)
          Session.commit (Batch.empty.delete .metadata identity.key)
          bucket.report (.objectDeleted identity) : Session Unit).run between := fun _ =>
        .commitThen removePayload fun _ => .commitThen removeRecord fun _ => .emitIf _ _
      dsimp only
      split
      · exact rest _
      · exact .commitThen removeName rest

theorem uses_deleteNamed (covers : footprint.CoversIdentities) {name owner : String}
    (looks : ∀ canonical, Uuid.normalise Metadata.Key.owner.text owner = .ok canonical →
      name.utf8ByteSize ≤ Object.nameLimit → footprint.looks .name (nameKey name canonical))
    (names : before.ClaimsOnly (before.resolved name owner).toOption.toList
      footprint.CoversName) :
    Uses circumstances footprint (bucket.deleteNamed name owner).run before := by
  refine .afterLook (uses_resolve looks) (leads_resolve name owner) fun identity found => ?_
  rw [found] at names
  exact uses_delete covers names

theorem uses_deleteEach (covers : footprint.CoversIdentities) {identities : List Uuid}
    (names : before.ClaimsOnly identities footprint.CoversName) :
    Uses circumstances footprint (bucket.deleteEach identities).run before := by
  induction identities generalizing before with
  | nil => exact .give 0
  | cons identity rest inductionHypothesis =>
      have here : before.ClaimsOnly [identity] footprint.CoversName := names.mono (by simp)
      refine .attempt (uses_delete covers here) (leads_delete identity) ?_
      intro result between deletes
      -- No record is added, so the others claim what they claimed.
      have later : between.ClaimsOnly rest footprint.CoversName :=
        (names.mono (List.subset_cons_self identity rest)).within
          deletes.pruned.removals.recordsWithin
      cases result with
      | ok =>
          exact .follow (inductionHypothesis later) (leads_deleteEach rest) fun _ _ _ => .give _
      | error error =>
          dsimp only
          split
          · exact .afterLook (.emit _) (Leads.emit (Shows.of_eq _))
              fun _ _ => inductionHypothesis later
          · exact .fail error

theorem uses_deleteReported (covers : footprint.CoversIdentities) {identities : List Uuid}
    (names : before.ClaimsOnly identities footprint.CoversName) (connective : Connective) :
    Uses circumstances footprint (do
      let count ← bucket.deleteEach identities
      bucket.report (.selectionDeleted count connective)
      return count : Session Nat).run before :=
  .follow (uses_deleteEach covers names) (leads_deleteEach identities)
    fun count _ _ => .reportThen bucket _ count

theorem uses_deleteSelected (covers : footprint.CoversIdentities) {selection : Selection}
    (names : before.ClaimsOnly (before.matched selection) footprint.CoversName) :
    Uses circumstances footprint (bucket.deleteSelected selection).run before := by
  refine .afterLook (uses_select covers selection) (leads_select selection) ?_
  intro identities found
  rw [Contents.matched, found] at names
  exact uses_deleteReported covers names selection.connective

theorem uses_run (covers : footprint.CoversIdentities) {selection : Selection}
    (names : before.ClaimsOnly (before.doomed selection) footprint.CoversName) :
    Uses circumstances footprint (bucket.run selection).run before := by
  unfold run
  unfold Contents.doomed at names
  cases purpose : selection.purpose with
  | fetch =>
      rw [ExceptT.run_map]
      exact .map _ (uses_fetchSelected covers selection)
  | delete =>
      rw [purpose] at names
      rw [ExceptT.run_map]
      exact .map _ (uses_deleteSelected covers names)

/-! ## Creations -/

theorem uses_commitEntries {batch : Batch} (may : ∀ write ∈ batch.writes, footprint.writes write) :
    Uses circumstances footprint (commitEntries entries batch).run before := by
  have trivially : Leads circumstances (Session.commit batch).run before fun _ _ => True :=
    Leads.commit (fun _ _ => trivial) (fun _ _ => trivial) fun _ _ => trivial
  refine .attempt (.commit may) trivially fun result between _ => ?_
  cases result with
  | ok => exact .give ()
  | error error => exact .fail _

theorem uses_requireFreeName (covers : footprint.CoversEntry entry) :
    Uses circumstances footprint (requireFreeName entry).run before := by
  have present := nameKey_ne_nil entry.name entry.owner
  refine .afterLook (.holds present covers.looks)
    (Leads.holds present Shows.refused (Shows.of_eq _)) fun held _ => ?_
  cases held with
  | true => exact .fail _
  | false => exact .give ()

theorem uses_requireFreeNames (covers : ∀ entry ∈ entries, footprint.CoversEntry entry) :
    Uses circumstances footprint (requireFreeNames entries).run before := by
  induction entries with
  | nil => exact .give ()
  | cons entry rest inductionHypothesis =>
      obtain ⟨here, later⟩ := List.forall_mem_cons.1 covers
      refine .follow (uses_requireFreeName here) leads_requireFreeName ?_
      rintro _ _ ⟨rfl, _⟩
      exact inductionHypothesis later

/-- The name of an entry is written with the whole entry or alone. -/
theorem uses_indexEntry (covers : footprint.CoversEntry entry) :
    Uses circumstances footprint (indexEntry entry).run before := by
  have trivially : Leads circumstances (commitEntries [entry] entry.nameWrite).run before
      fun _ _ => True :=
    leads_commitEntries (fun _ _ => trivial) (fun _ _ => trivial) fun _ _ => trivial
  exact .follow (uses_commitEntries covers.nameWrite) trivially
    fun _ between _ => .commit covers.recordWrite

theorem uses_indexEntries (covers : ∀ entry ∈ entries, footprint.CoversEntry entry) :
    Uses circumstances footprint (indexEntries entries) before := by
  induction entries generalizing before with
  | nil => exact .pure _
  | cons entry rest inductionHypothesis =>
      obtain ⟨here, later⟩ := List.forall_mem_cons.1 covers
      refine .bind (uses_indexEntry here) leads_indexEntry fun result between _ => ?_
      cases result with
      | error error => exact .pure _
      | ok => exact .bind (inductionHypothesis later) leads_indexEntries fun _ _ _ => .pure _

/-- Content is written with the whole entry or alone. -/
theorem uses_writeEntry (mode : WriteMode) (covers : footprint.CoversEntry entry) :
    Uses circumstances footprint (writeEntry mode entry).run before := by
  cases mode with
  | atomic => exact uses_commitEntries covers.writes
  | independent =>
      refine .follow (uses_requireFreeName covers) leads_requireFreeName fun _ _ _ => ?_
      exact .commitThen covers.payloadWrite fun _ => uses_indexEntry covers

theorem uses_writeEntries (mode : WriteMode)
    (covers : ∀ entry ∈ entries, footprint.CoversEntry entry) :
    Uses circumstances footprint (writeEntries mode entries) before := by
  cases mode with
  | atomic =>
      have joined := Batch.forall_mem_join fun entry among => (covers entry among).writes
      refine .bind (uses_commitEntries joined) leads_fullWrites fun result _ _ => ?_
      cases result with
      | error error => exact .pure _
      | ok => exact .pure _
  | independent =>
      have joined := Batch.forall_mem_join fun entry among => (covers entry among).payloadWrite
      have contents : Uses circumstances footprint (do
          requireFreeNames entries
          Session.commit (Batch.join (entries.map Entry.payloadWrite)) : Session Unit).run before :=
        .follow (uses_requireFreeNames covers) leads_requireFreeNames
          fun _ _ _ => .commit joined
      refine .bind contents leads_payloadWrites fun result _ _ => ?_
      cases result with
      | error error => exact .pure _
      | ok => exact uses_indexEntries covers

theorem uses_create {object : Object}
    (covers : object.Storable bucket.settings.requireContentType →
      footprint.CoversEntry object.entry) :
    Uses circumstances footprint (bucket.create object).run before := by
  refine .afterLook (.ofExcept _) (Leads.ofExcept (Shows.of_eq _)) fun entry accepted => ?_
  obtain ⟨storable, rfl⟩ := Entry.prepare_eq_ok_iff.1 (mapError_eq_ok_iff.1 accepted)
  refine .follow (uses_writeEntry _ (covers storable)) leads_writeEntry fun _ _ _ => ?_
  exact .reportThen bucket _ _

theorem uses_createBatch {objects : List Object}
    (covers : ∀ object ∈ objects, object.Storable bucket.settings.requireContentType →
      footprint.CoversEntry object.entry) :
    Uses circumstances footprint (bucket.createBatch objects) before := by
  unfold createBatch
  cases objects with
  | nil => exact .pure _
  | cons object rest =>
      generalize size : object :: rest = objects at covers
      have present : objects.map Object.entry ≠ [] := by simp [← size]
      rw [if_neg (by simp [← size])]
      cases prepared : bucket.prepareBatch objects with
      | error error => exact .pure _
      | ok entries =>
          obtain ⟨storable, _, rfl⟩ := prepareBatch_eq_ok_iff.1 prepared
          have covered : ∀ entry ∈ objects.map Object.entry, footprint.CoversEntry entry :=
            List.forall_mem_map.2 fun object member =>
              covers object member (storable object member)
          refine .bind (uses_writeEntries _ covered) (leads_writeEntries present) ?_
          rintro ⟨count, outcome⟩ between _
          cases outcome with
          | error error => exact .pure _
          | ok =>
              exact .bind (.emitIf _ _) (@Leads.emitIf _ _ _ _ (fun _ _ => True) trivial)
                fun _ _ _ => .pure _

/-! ## Reconciliations -/

theorem uses_emitAll (events : List Event) :
    Uses circumstances footprint (Reconciliation.emitAll events).run before := by
  induction events with
  | nil => exact .give ()
  | cons event rest inductionHypothesis =>
      exact .afterLook (.emit event) (Leads.emit (Shows.of_eq _)) fun _ _ => inductionHypothesis

theorem uses_survey (visits : ∀ region, footprint.visits region) :
    Uses circumstances footprint Reconciliation.survey.run before := by
  have given : ∀ {α : Type} (value : α), Leads circumstances (pure value : Session α).run before
      (Shows circumstances before (.ok value)) := fun value => Leads.give (Shows.of_eq (.ok value))
  have told : Leads circumstances
      (do Reconciliation.emitAll (Reconciliation.unreadableRecords before.records.entries)
          return before.records : Session _).run before
      (Shows circumstances before (.ok before.records)) :=
    Leads.thenShows (Reconciliation.leads_emitAll _) fun _ _ => given before.records
  refine .afterLook (.scan (visits .payload) (.give _) (given before.payloads))
    (Leads.scan Shows.refused (given before.payloads)) fun payloads _ => ?_
  refine .afterLook (.scan (visits .metadata) ?_ told) (Leads.scan Shows.refused told) ?_
  · exact .afterLook (uses_emitAll _) (Reconciliation.leads_emitAll _) fun _ _ => .give _
  intro records _
  refine .afterLook (.scan (visits .name) (.give _) (given before.names))
    (Leads.scan Shows.refused (given before.names)) fun names _ => ?_
  exact .give _

/-- All regions are visited, and what is planned is committed. -/
theorem uses_reconcile (visits : ∀ region, footprint.visits region)
    (planned : ∀ write ∈ (Reconciliation.plan before).batch.writes, footprint.writes write) :
    Uses circumstances footprint bucket.reconcile.run before := by
  refine .afterLook (uses_survey visits) Reconciliation.leads_survey fun contents surveyed => ?_
  obtain rfl := Except.ok.inj surveyed
  refine .afterLook (uses_emitAll _) (Reconciliation.leads_emitAll _) fun _ _ => ?_
  have finished : ∀ between (report : Reconciliation.Report), Uses circumstances footprint (do
      Session.emitIf (!report.isClean) (.repaired report)
      return report : Session Reconciliation.Report).run between := fun _ report =>
    .afterLook (.emitIf _ _) (Leads.emitIf (Shows.of_eq _)) fun _ _ => .give report
  dsimp only
  split
  · exact finished _ _
  · exact .commitThen planned fun between => finished between _

end Bucket

end Depot
