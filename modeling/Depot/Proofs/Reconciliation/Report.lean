import Mathlib.Data.Set.Card
import Depot.Proofs.Reconciliation.Specification

/-!
# What a reconciliation reports

A report counts what there was to repair: content without a record, records that are not live,
names that lead to no claimant, and claimed names that lead to nobody afterwards. By these
numbers the regions shrink and grow. Once is enough: what a reconciliation leaves needs no
repair, and where nothing is reported nothing was changed.
-/

namespace Depot.Reconciliation

/-- A report counts the repairs that contents need. -/
structure Report.Counts (report : Report) (before : Contents) : Prop where
  orphanedPayloads :
    {key | (∃ payload, before.payloads.get? key = some payload) ∧
      before.records.get? key = none}.encard = report.orphanedPayloads
  orphanedRecords :
    {key | (∃ record, before.records.get? key = some record) ∧ ¬ Live before key}.encard
      = report.orphanedRecords
  danglingNames :
    {key | ∃ holder, before.names.get? key = some holder ∧ ¬ Claims before holder key}.encard
      = report.danglingNames
  restoredNames :
    {key | (∃ identity, Claims before identity key) ∧
      ∀ holder, before.names.get? key = some holder → ¬ Claims before holder key}.encard
      = report.restoredNames

/-- A list in which nothing stands twice is as long as there are things in it. -/
theorem encard_of_nodup {items : List Bytes} {described : Set Bytes} (distinct : items.Nodup)
    (member : ∀ item, item ∈ items ↔ item ∈ described) : described.encard = items.length := by
  have same : described = (items.toFinset : Set Bytes) := by
    ext item
    rw [← member item, Finset.mem_coe, List.mem_toFinset]
  rw [same, Set.encard_coe_eq_coe_finsetCard, List.toFinset_card_of_nodup distinct]

variable {held : OrderedMap Bytes Bytes} {claims : List (Bytes × Bytes)} {contents : Contents}
  {key : Bytes}

/-! ## Which keys a plan lists -/

theorem mem_orphanedPayloads_iff : key ∈ (plan contents).payloads ↔
    (∃ payload, contents.payloads.get? key = some payload) ∧ contents.records.get? key = none := by
  simp [plan, orphanedPayloads, OrderedMap.mem_keys_iff, Option.isSome_iff_exists]

theorem mem_orphanedRecords_iff : key ∈ (plan contents).records ↔
    (∃ record, contents.records.get? key = some record) ∧ ¬ Live contents key := by
  simp [plan, orphanedRecords, OrderedMap.mem_keys_iff, ← Option.isSome_iff_exists,
    lookup_liveClaims, live_iff]

theorem mem_dangling_iff : key ∈ (plan contents).dangling ↔
    ∃ holder, contents.names.get? key = some holder ∧ ¬ Claims contents holder key := by
  simp [plan, isKept, OrderedMap.mem_entries_iff, lookup_liveClaims, claims_iff]

/-- A claim is restored if nobody holds its name, who then is held to have it. -/
theorem restored_cons (held : OrderedMap Bytes Bytes) (identity wanted : Bytes)
    (rest : List (Bytes × Bytes)) :
    (repairNames held ((identity, wanted) :: rest)).restored
      = match held.get? wanted with
        | some _ => (repairNames held rest).restored
        | none => (wanted, identity) :: (repairNames (held.insert wanted identity) rest).restored := by
  rw [repairNames]
  cases held.get? wanted with
  | none => rfl
  | some holder =>
      simp only
      split <;> rfl

/-- The names that are written are those that are claimed and held by nobody. -/
theorem mem_restored_keys_iff : key ∈ (repairNames held claims).restored.map Prod.fst ↔
    held.get? key = none ∧ ∃ identity, (identity, key) ∈ claims := by
  induction claims generalizing held with
  | nil => simp [repairNames]
  | cons claim rest inductionHypothesis =>
      obtain ⟨identity, wanted⟩ := claim
      rw [restored_cons]
      cases taken : held.get? wanted with
      | some holder =>
          rw [inductionHypothesis]
          refine and_congr_right fun free => exists_congr fun other => ?_
          have apart : key ≠ wanted := by
            rintro rfl
            rw [free] at taken
            exact absurd taken (by simp)
          simp [apart]
      | none =>
          rw [List.map_cons, List.mem_cons, inductionHypothesis, OrderedMap.get?_insert_eq]
          by_cases same : key = wanted
          · subst same
            simp [taken]
          · simp [same]

/-- No name is written twice. -/
theorem nodup_restored_keys : ((repairNames held claims).restored.map Prod.fst).Nodup := by
  induction claims generalizing held with
  | nil => simp [repairNames]
  | cons claim rest inductionHypothesis =>
      obtain ⟨identity, wanted⟩ := claim
      rw [restored_cons]
      cases held.get? wanted with
      | some holder => exact inductionHypothesis
      | none =>
          refine List.nodup_cons.2 ⟨fun again => ?_, inductionHypothesis⟩
          have free := (mem_restored_keys_iff.1 again).1
          rw [OrderedMap.get?_insert_self] at free
          exact absurd free (by simp)

/-- Every name that is written is one more than were held. -/
theorem size_names : ((repairNames held claims).names held).size
    = held.size + (repairNames held claims).restored.length := by
  induction claims generalizing held with
  | nil => rfl
  | cons claim rest inductionHypothesis =>
      obtain ⟨identity, wanted⟩ := claim
      rw [NameRepair.names, restored_cons]
      cases free : held.get? wanted with
      | some holder => exact inductionHypothesis
      | none =>
          have later := @inductionHypothesis (held.insert wanted identity)
          rw [held.size_insert_of_free identity free] at later
          rw [List.foldl_cons, List.length_cons]
          exact later.trans (by omega)

/-- The report of a plan counts the repairs that contents need. -/
theorem counts_report (contents : Contents) : (plan contents).report.Counts contents where
  orphanedPayloads :=
    encard_of_nodup (contents.payloads.nodup_keys.filter _) fun _ => mem_orphanedPayloads_iff
  orphanedRecords :=
    encard_of_nodup (contents.records.nodup_keys.filter _) fun _ => mem_orphanedRecords_iff
  danglingNames := by
    have distinct : (plan contents).dangling.Nodup :=
      contents.names.nodup_keys.sublist (List.filter_sublist.map Prod.fst)
    exact encard_of_nodup distinct fun _ => mem_dangling_iff
  restoredNames := by
    have listed : (plan contents).report.restoredNames
        = ((plan contents).names.restored.map Prod.fst).length := (List.length_map _).symm
    rw [listed]
    refine encard_of_nodup nodup_restored_keys fun key => mem_restored_keys_iff.trans ?_
    have unheld : (keptNames contents).get? key = none ↔
        ∀ holder, contents.names.get? key = some holder → ¬ Claims contents holder key := by
      rw [Option.eq_none_iff_forall_ne_some]
      simp only [ne_eq, get?_keptNames_iff, not_and, claims_iff]
    have claimed : (∃ identity, (identity, key) ∈ liveClaims contents) ↔
        ∃ identity, Claims contents identity key := by
      simp only [mem_liveClaims_iff, claims_iff]
    exact (and_congr unheld claimed).trans and_comm

/-! ## How the regions shrink and grow -/

/-- There are as many records less as are reported to be removed. -/
theorem size_records_reconciled (contents : Contents) :
    (reconciled contents).records.size + (plan contents).report.orphanedRecords
      = contents.records.size := by
  have removed : (plan contents).report.orphanedRecords
      = (contents.records.entries.filter fun entry => !(claimed? contents entry.1).isSome).length := by
    show ((contents.records.entries.map Prod.fst).filter _).length = _
    rw [List.filter_map, List.length_map]
    simp only [lookup_liveClaims, Function.comp_def, Option.not_isSome]
  rw [removed]
  exact contents.records.size_filter_add fun identity _ => (claimed? contents identity).isSome

/-- There are as many names more or less as are reported to be written and removed. -/
theorem size_names_reconciled (contents : Contents) :
    (reconciled contents).names.size + (plan contents).report.danglingNames
      = contents.names.size + (plan contents).report.restoredNames := by
  have grown : (reconciled contents).names.size
      = (keptNames contents).size + (plan contents).report.restoredNames := size_names
  have kept : (keptNames contents).size + (plan contents).report.danglingNames
      = contents.names.size := by
    show _ + (List.map Prod.fst _).length = _
    rw [List.length_map]
    exact contents.names.size_filter_add fun key identity =>
      isKept (liveClaims contents) (key, identity)
  omega

/-! ## Once is enough -/

/-- Who claims a name is the same afterwards. -/
theorem claims_reconciled_iff {identity : Bytes} :
    Claims (reconciled contents) identity key ↔ Claims contents identity key := by
  have restores := restores_reconciled contents
  constructor
  · rintro ⟨⟨payload, paid⟩, record, metadata, name, owner, recorded, claim⟩
    exact ⟨⟨payload, ((restores.payloads _ _).1 paid).1⟩, record, metadata, name, owner,
      ((restores.records _ _).1 recorded).1, claim⟩
  · intro claims
    have live : Live contents identity := ⟨key, claims⟩
    obtain ⟨⟨payload, paid⟩, record, metadata, name, owner, recorded, claim⟩ := claims
    exact ⟨⟨payload, (restores.payloads _ _).2 ⟨paid, live⟩⟩, record, metadata, name, owner,
      (restores.records _ _).2 ⟨recorded, live⟩, claim⟩

/-- What is reconciled already is what a reconciliation of it must leave. -/
theorem restores_self (contents : Contents) :
    Restores (reconciled contents) (reconciled contents) := by
  have restores := restores_reconciled contents
  have live : ∀ identity, Live (reconciled contents) identity ↔ Live contents identity :=
    fun identity => exists_congr fun _ => claims_reconciled_iff
  refine ⟨fun identity payload => ?_, fun identity record => ?_, fun key identity => ?_,
    fun key identity claims => restores.claimed key identity (claims_reconciled_iff.1 claims)⟩
  · rw [live, restores.payloads, and_assoc, and_self_iff]
  · rw [live, restores.records, and_assoc, and_self_iff]
  · constructor
    · intro found
      have claims := ((restores.names key identity).1 found).1
      exact ⟨claims_reconciled_iff.2 claims, .inl found⟩
    · rintro ⟨claims, found | ⟨unheld, _⟩⟩
      · exact found
      · -- every claimed name leads to a claimant already
        obtain ⟨holder, held⟩ := restores.claimed key identity (claims_reconciled_iff.1 claims)
        have holds := ((restores.names key holder).1 held).1
        exact absurd (claims_reconciled_iff.2 holds) (unheld holder held)

/-- A reconciliation of what is reconciled already changes nothing. -/
theorem reconciled_reconciled (contents : Contents) :
    reconciled (reconciled contents) = reconciled contents :=
  (restores_self contents).eq_reconciled.symm

/-- Without repairs there is nothing to commit. -/
theorem isEmpty_of_isClean (clean : (plan contents).report.isClean = true) :
    (plan contents).batch.isEmpty = true := by
  have total := of_decide_eq_true clean
  simp only [Report.total, Plan.report, Nat.add_eq_zero_iff, List.length_eq_zero_iff] at total
  obtain ⟨⟨⟨payloads, records⟩, restored⟩, dangling⟩ := total
  simp [Plan.batch, Batch.isEmpty, payloads, records, restored, dangling]

/-- Nothing is reported exactly where nothing is changed. -/
theorem isClean_iff (contents : Contents) :
    (plan contents).report.isClean = true ↔ reconciled contents = contents := by
  refine ⟨fun clean => reconciled_of_isEmpty (isEmpty_of_isClean clean), fun same => ?_⟩
  have restores := restores_reconciled contents
  rw [same] at restores
  have payloads : (plan contents).payloads = [] := by
    refine List.eq_nil_iff_forall_not_mem.2 fun key listed => ?_
    obtain ⟨⟨payload, paid⟩, unrecorded⟩ := mem_orphanedPayloads_iff.1 listed
    obtain ⟨_, _, record, _, _, _, recorded, _⟩ := ((restores.payloads key payload).1 paid).2
    exact absurd (unrecorded.symm.trans recorded) (by simp)
  have records : (plan contents).records = [] := by
    refine List.eq_nil_iff_forall_not_mem.2 fun key listed => ?_
    obtain ⟨⟨record, recorded⟩, dead⟩ := mem_orphanedRecords_iff.1 listed
    exact dead ((restores.records key record).1 recorded).2
  have dangling : (plan contents).dangling = [] := by
    refine List.eq_nil_iff_forall_not_mem.2 fun key listed => ?_
    obtain ⟨holder, held, unclaimed⟩ := mem_dangling_iff.1 listed
    exact unclaimed ((restores.names key holder).1 held).1
  have restored : (plan contents).names.restored.length = 0 := by
    have sizes := size_names_reconciled contents
    simp only [same, Plan.report, dangling, List.length_nil] at sizes
    omega
  rw [Report.isClean, decide_eq_true_iff, Report.total]
  simp only [Plan.report, payloads, records, dangling, restored, List.length_nil]

/-- Whatever an engine in memory holds, a reconciliation succeeds and reports exactly what there
was to repair: the records are fewer by those that are reported, the names are fewer by the
dangling and more by the restored ones. Nothing is reported exactly if all regions are as they
were, and a second reconciliation reports nothing and changes nothing. -/
theorem reconcile_reports (bucket : Bucket) (contents : Contents) (events : List Event) :
    let first := bucket.reconcile.run.run { contents, events }
    let second := bucket.reconcile.run.run first.2
    let after := first.2.contents
    ∃ report, first.1 = .ok report ∧ report.Counts contents ∧
      (∃ repeated, second.1 = .ok repeated ∧ repeated.isClean = true ∧
        second.2.contents = after) ∧
      (report.isClean = true ↔ after = contents) ∧
      after.records.size + report.orphanedRecords = contents.records.size ∧
      after.names.size + report.danglingNames = contents.names.size + report.restoredNames := by
  obtain ⟨between, first⟩ := run_reconcile_calm bucket contents events
  obtain ⟨later, second⟩ := run_reconcile_calm bucket (reconciled contents) between
  simp only [first, second]
  refine ⟨_, rfl, counts_report contents, ⟨_, rfl, ?_, reconciled_reconciled contents⟩,
    isClean_iff contents, size_records_reconciled contents, size_names_reconciled contents⟩
  rw [isClean_iff, reconciled_reconciled]

end Depot.Reconciliation
