import Depot.Proofs.Batch
import Depot.Proofs.Bucket.Lookup
import Depot.Reconciliation

/-!
# What reconciling does

The contents that a reconciliation leaves are a function of the contents it finds:
what is not live is gone, kept names stay, and every live object's name key is held by
some live object that claims it. Which of several claimants of one name comes to hold it
is decided by key order and by who held it before.
-/

namespace Depot

namespace Reconciliation

/-- The name key that an identity claims, if it has content and a record that claims
one. -/
def claimed? (contents : Contents) (identity : Bytes) : Option Bytes :=
  (contents.records.get? identity).bind fun record =>
    if contents.payloads.contains identity then claimOfRecord? record else none

/-- The live claims, computed from the records one by one. -/
theorem liveClaims_eq (contents : Contents) :
    liveClaims contents = contents.records.entries.filterMap fun entry =>
      (if contents.payloads.contains entry.1 then claimOfRecord? entry.2 else none).map
        (entry.1, ·) := by
  unfold liveClaims
  congr 1
  funext entry
  split <;> rfl

/-- The live claims list what identities claim. -/
theorem lookup_liveClaims (contents : Contents) (identity : Bytes) :
    OrderedMap.lookup identity (liveClaims contents) = claimed? contents identity := by
  rw [liveClaims_eq]
  exact OrderedMap.lookup_filterMap contents.records
    (fun key record => if contents.payloads.contains key then claimOfRecord? record else none)
    identity

/-- An identity and a name key are listed exactly if the one claims the other. -/
theorem mem_liveClaims_iff {contents : Contents} {identity key : Bytes} :
    (identity, key) ∈ liveClaims contents ↔ claimed? contents identity = some key := by
  rw [liveClaims_eq, List.mem_filterMap]
  unfold claimed?
  constructor
  · rintro ⟨⟨held, record⟩, member, found⟩
    obtain ⟨_, claims, pair⟩ := Option.map_eq_some_iff.1 found
    obtain ⟨rfl, rfl⟩ := Prod.mk.inj pair
    rw [(contents.records.mem_entries_iff _ _).1 member]
    exact claims
  · intro claims
    obtain ⟨record, found, claim⟩ := Option.bind_eq_some_iff.1 claims
    refine ⟨(identity, record), (contents.records.mem_entries_iff _ _).2 found, ?_⟩
    simp only [claim, Option.map_some]

/-- The names that are kept. -/
def keptNames (contents : Contents) : OrderedMap Bytes Bytes :=
  contents.names.filter fun key identity => isKept (liveClaims contents) (key, identity)

/-- A name is kept if it leads to an identity that claims it. -/
theorem get?_keptNames_iff {contents : Contents} {key identity : Bytes} :
    (keptNames contents).get? key = some identity ↔
      contents.names.get? key = some identity ∧ claimed? contents identity = some key := by
  unfold keptNames isKept
  rw [OrderedMap.get?_filter, Option.filter_eq_some_iff, lookup_liveClaims, decide_eq_true_iff]

/-- Names after the repair: those that were held and those that were restored. -/
def NameRepair.names (repair : NameRepair) (held : OrderedMap Bytes Bytes) :
    OrderedMap Bytes Bytes :=
  repair.restored.foldl (fun map entry => map.insert entry.1 entry.2) held

/-- The repair leaves held names alone. -/
theorem get?_names_of_held {held : OrderedMap Bytes Bytes} {claims : List (Bytes × Bytes)}
    {key holder : Bytes} (holds : held.get? key = some holder) :
    ((repairNames held claims).names held).get? key = some holder := by
  induction claims generalizing held with
  | nil => exact holds
  | cons claim rest inductionHypothesis =>
      obtain ⟨identity, wanted⟩ := claim
      rw [repairNames]
      split
      · dsimp only
        split
        · exact inductionHypothesis holds
        · exact inductionHypothesis holds
      · rename_i free
        have apart : key ≠ wanted := by
          rintro rfl
          rw [holds] at free
          exact absurd free (by simp)
        exact inductionHypothesis ((OrderedMap.get?_insert_of_ne _ _ apart).trans holds)

/-- A name after the repair was held before or is claimed by whom it leads to. -/
theorem held_or_claims_of_get?_names {held : OrderedMap Bytes Bytes}
    {claims : List (Bytes × Bytes)} {key holder : Bytes}
    (found : ((repairNames held claims).names held).get? key = some holder) :
    held.get? key = some holder ∨ (holder, key) ∈ claims := by
  induction claims generalizing held with
  | nil => exact .inl found
  | cons claim rest inductionHypothesis =>
      obtain ⟨identity, wanted⟩ := claim
      rw [repairNames] at found
      split at found
      · -- the name is taken; the two branches differ in what is reported only
        have later : ((repairNames held rest).names held).get? key = some holder := by
          dsimp only at found
          split at found
          · exact found
          · exact found
        exact (inductionHypothesis later).imp_right (List.mem_cons_of_mem _)
      · rcases inductionHypothesis found with holds | later
        · rw [OrderedMap.get?_insert_eq] at holds
          split at holds
          · rename_i same
            obtain rfl := Option.some.inj holds
            exact .inr (same ▸ List.mem_cons_self)
          · exact .inl holds
        · exact .inr (List.mem_cons_of_mem _ later)

/-- Every claimed name is held by someone after the repair. -/
theorem get?_names_of_claims {held : OrderedMap Bytes Bytes} {claims : List (Bytes × Bytes)}
    {key identity : Bytes} (claim : (identity, key) ∈ claims) :
    ∃ holder, ((repairNames held claims).names held).get? key = some holder := by
  induction claims generalizing held with
  | nil => exact absurd claim (by simp)
  | cons first rest inductionHypothesis =>
      rcases List.mem_cons.1 claim with rfl | later
      · cases holds : held.get? key with
        | some holder => exact ⟨holder, get?_names_of_held holds⟩
        | none =>
            refine ⟨identity, ?_⟩
            simp only [repairNames, holds]
            exact get?_names_of_held (OrderedMap.get?_insert_self _ _ _)
      · rw [repairNames]
        split
        · dsimp only
          split
          · exact inductionHypothesis later
          · exact inductionHypothesis later
        · exact inductionHypothesis later

/-- Where everyone holds the name they claim, nothing is to be repaired. -/
theorem repairNames_of_held {held : OrderedMap Bytes Bytes} {claims : List (Bytes × Bytes)}
    (holds : ∀ identity key, (identity, key) ∈ claims → held.get? key = some identity) :
    repairNames held claims = {} := by
  induction claims with
  | nil => rfl
  | cons claim rest inductionHypothesis =>
      obtain ⟨identity, key⟩ := claim
      simp only [repairNames, holds identity key List.mem_cons_self, if_true]
      exact inductionHypothesis fun identity key later =>
        holds identity key (List.mem_cons_of_mem _ later)

/-- The contents after a reconciliation. -/
def reconciled (contents : Contents) : Contents where
  payloads := contents.payloads.filter fun identity _ => (claimed? contents identity).isSome
  names := (plan contents).names.names (keptNames contents)
  records := contents.records.filter fun identity _ => (claimed? contents identity).isSome

/-- An identity with content but no record, or with a record but no claim, has no claim. -/
theorem claimed?_eq_none_of_record {contents : Contents} {identity : Bytes}
    (missing : contents.records.get? identity = none) : claimed? contents identity = none := by
  simp [claimed?, missing]

/-- Removing the payloads of a plan, and those of its records, leaves live content. -/
theorem get?_erased_payloads (contents : Contents) (identity : Bytes) :
    ((plan contents).records.foldl OrderedMap.erase
        ((plan contents).payloads.foldl OrderedMap.erase contents.payloads)).get? identity
      = (reconciled contents).payloads.get? identity := by
  rw [OrderedMap.get?_foldl_erase, OrderedMap.get?_foldl_erase]
  simp only [reconciled, plan, orphanedRecords, orphanedPayloads, List.mem_filter,
    OrderedMap.mem_keys_iff, OrderedMap.contains_eq_isSome, lookup_liveClaims,
    OrderedMap.get?_filter]
  cases recorded : contents.records.get? identity with
  | none =>
      simp only [claimed?_eq_none_of_record recorded]
      cases contents.payloads.get? identity <;> simp
  | some record =>
      cases claimed? contents identity <;> cases contents.payloads.get? identity <;>
        simp [Option.filter]

/-- Removing the records of a plan leaves live records. -/
theorem get?_erased_records (contents : Contents) (identity : Bytes) :
    ((plan contents).records.foldl OrderedMap.erase contents.records).get? identity
      = (reconciled contents).records.get? identity := by
  rw [OrderedMap.get?_foldl_erase]
  simp only [reconciled, plan, orphanedRecords, List.mem_filter, OrderedMap.mem_keys_iff,
    lookup_liveClaims, OrderedMap.get?_filter]
  cases contents.records.get? identity with
  | none => simp
  | some record => cases claimed? contents identity <;> simp [Option.filter]

/-- Removing the dangling names of a plan leaves the kept ones. -/
theorem erased_dangling (contents : Contents) :
    (plan contents).dangling.foldl OrderedMap.erase contents.names = keptNames contents := by
  refine OrderedMap.ext_get? fun key => ?_
  have member : key ∈ (plan contents).dangling ↔ ∃ identity,
      contents.names.get? key = some identity ∧
        isKept (liveClaims contents) (key, identity) = false := by
    simp [plan, OrderedMap.mem_entries_iff]
  rw [OrderedMap.get?_foldl_erase, keptNames, OrderedMap.get?_filter]
  cases found : contents.names.get? key with
  | none => simp
  | some identity =>
      cases kept : isKept (liveClaims contents) (key, identity) <;>
        simp [member, found, kept, Option.filter]

/-- Removals of records with their content, one after the other. -/
theorem foldl_write_records (contents : Contents) (keys : List Bytes) :
    (keys.flatMap fun key => [Write.delete .metadata key, .delete .payload key]).foldl
        Contents.write contents
      = { contents with
          records := keys.foldl OrderedMap.erase contents.records
          payloads := keys.foldl OrderedMap.erase contents.payloads } := by
  induction keys generalizing contents with
  | nil => rfl
  | cons key rest inductionHypothesis =>
      rw [List.flatMap_cons, List.foldl_append, inductionHypothesis]
      rfl

/-- What the batch of a plan leaves. -/
theorem commit_plan {rule : KeyRule} {contents after : Contents}
    (done : contents.commit rule (plan contents).batch = .ok after) :
    after = reconciled contents := by
  have payloads := OrderedMap.ext_get? (get?_erased_payloads contents)
  have records := OrderedMap.ext_get? (get?_erased_records contents)
  rw [Contents.applyAll_eq_ok done]
  simp only [Plan.batch, List.foldl_append, Contents.foldl_write_deletes, foldl_write_records,
    Contents.foldl_write_puts, Contents.update, payloads, records, erased_dangling]
  rfl

theorem batch_eq_empty {batch : Batch} (empty : batch.isEmpty = true) : batch = Batch.empty :=
  congrArg Batch.mk (List.isEmpty_iff.1 empty)

/-- An empty plan has nothing to do. -/
theorem reconciled_of_isEmpty {contents : Contents}
    (empty : (plan contents).batch.isEmpty = true) : reconciled contents = contents := by
  refine (@commit_plan .unrestricted contents contents ?_).symm
  rw [batch_eq_empty empty, Contents.commit_empty]

section

variable {circumstances : Circumstances} {before : Contents}

/-- Events that are reported change nothing. -/
theorem leads_emitAll (events : List Event) :
    Leads circumstances (emitAll events).run before (Shows circumstances before (.ok ())) := by
  induction events with
  | nil => exact Leads.give (Shows.of_eq _)
  | cons event rest inductionHypothesis => exact Leads.andThen (Leads.emit inductionHypothesis)

/-- A survey shows the contents. -/
theorem leads_survey :
    Leads circumstances survey.run before (Shows circumstances before (.ok before)) := by
  have payloads : Leads circumstances
      (Session.scan .payload fun payloads => return payloads : Session _).run before
      (Shows circumstances before (.ok before.payloads)) :=
    Leads.scan Shows.refused (Leads.give (Shows.of_eq _))
  have records : Leads circumstances
      (Session.scan .metadata fun records => do
        emitAll (unreadableRecords records.entries)
        return records : Session _).run before
      (Shows circumstances before (.ok before.records)) :=
    Leads.scan Shows.refused
      (Leads.thenShows (leads_emitAll _) fun _ _ => Leads.give (Shows.of_eq _))
  have names : Leads circumstances
      (Session.scan .name fun names => return names : Session _).run before
      (Shows circumstances before (.ok before.names)) :=
    Leads.scan Shows.refused (Leads.give (Shows.of_eq _))
  show Leads circumstances survey.run before (Shows circumstances before (do
    let payloads ← (.ok before.payloads : Except StoreError _)
    let records ← (.ok before.records : Except StoreError _)
    let names ← (.ok before.names : Except StoreError _)
    return { payloads, names, records }))
  refine Leads.thenShows payloads fun _ _ => ?_
  refine Leads.thenShows records fun _ _ => ?_
  exact Leads.thenShows names fun _ _ => Leads.give (Shows.of_eq _)

/-- How a reconciliation ends: with the reconciled contents and the report of their plan,
or with a failure that leaves everything as it was and is due to a refusal by the
engine. -/
def Ends (circumstances : Circumstances) (before : Contents) (result : Except StoreError Report)
    (after : Contents) : Prop :=
  match result with
  | .ok report => after = reconciled before ∧ report = (plan before).report
  | .error error => after = before ∧
      (circumstances.mayRefuse ∨
        before.commit circumstances.keyRule (plan before).batch = .error error)

/-- What reconciling leads to. -/
theorem leads_reconcile {bucket : Bucket} :
    Leads circumstances bucket.reconcile.run before (Ends circumstances before) := by
  have failed : ∀ {α : Type} {value : α} (error : StoreError) (after : Contents),
      Shows circumstances before (.ok value) (.error error) after →
        Ends circumstances before (.error error) after := by
    rintro α value error after ⟨same, wrong | ⟨may, _⟩⟩
    · exact absurd wrong (by simp)
    · exact ⟨same, .inl may⟩
  refine Leads.follow leads_survey failed ?_
  rintro contents _ shows
  obtain rfl := Except.ok.inj shows.eq_of_ok
  obtain rfl := shows.1.symm
  refine Leads.follow (leads_emitAll _) failed ?_
  rintro _ _ ⟨same, _⟩
  obtain rfl := same.symm
  have finished : Leads circumstances (do
      Session.emitIf (!(plan before).report.isClean) (.repaired (plan before).report)
      return (plan before).report : Session Report).run (reconciled before)
      (Ends circumstances before) :=
    Leads.andThen (Leads.emitIf (Leads.give ⟨rfl, rfl⟩))
  dsimp only
  split
  · rename_i empty
    rwa [reconciled_of_isEmpty empty] at finished
  · refine Leads.andThen (Leads.commit (fun may _ => ⟨rfl, .inl may⟩)
      (fun _ failure => ⟨rfl, .inr failure⟩) fun after committed => ?_)
    obtain rfl := commit_plan committed
    exact finished

end

end Reconciliation

end Depot
