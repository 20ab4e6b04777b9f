import Depot.Proofs.Bucket.Entry
import Depot.Proofs.Reconciliation
import Depot.Proofs.Session.Calls

/-!
# What a reconciliation must leave

Which identities are live and which names they claim is said here of the bytes in the
regions, whatever they are: names that lead nowhere, shared names, records that cannot be
read, content that is missing. A reconciliation leaves exactly the live identities, and
every claimed name with one of its claimants: with the one who held it, or else with the
smallest. If one of its calls is refused it fails with the refusal and changes nothing.
-/

namespace Depot.Reconciliation

/-- An identity claims a name key: it has content, and a record that can be read and gives a
name and an owner, of which the key is made up. -/
def Claims (contents : Contents) (identity key : Bytes) : Prop :=
  (∃ payload, contents.payloads.get? identity = some payload) ∧
    ∃ record metadata name owner, contents.records.get? identity = some record ∧
      Metadata.decode record = .ok metadata ∧
      metadata.get? Metadata.Key.name.text = some name ∧ name ≠ "" ∧
      metadata.get? Metadata.Key.owner.text = some owner ∧ owner ≠ "" ∧
      key = nameKey name owner

/-- An identity is live if it claims a name. -/
def Live (contents : Contents) (identity : Bytes) : Prop := ∃ key, Claims contents identity key

/-- A claimant of a name key is entitled to it: it holds the name already, or no claimant
does and it is the smallest of them. -/
def Entitled (contents : Contents) (key identity : Bytes) : Prop :=
  Claims contents identity key ∧
    (contents.names.get? key = some identity ∨
      (∀ holder, contents.names.get? key = some holder → ¬ Claims contents holder key) ∧
        ∀ other, Claims contents other key → (compare identity other).isLE = true)

/-- What a reconciliation must leave of contents. -/
structure Restores (before after : Contents) : Prop where
  payloads : ∀ identity payload, after.payloads.get? identity = some payload ↔
    before.payloads.get? identity = some payload ∧ Live before identity
  records : ∀ identity record, after.records.get? identity = some record ↔
    before.records.get? identity = some record ∧ Live before identity
  names : ∀ key identity, after.names.get? key = some identity ↔ Entitled before key identity
  claimed : ∀ key identity, Claims before identity key →
    ∃ holder, after.names.get? key = some holder

/-- A record claims the key of the name and the owner that it gives. -/
theorem claim?_eq_some_iff {metadata : Metadata} {key : Bytes} :
    claim? metadata = some key ↔ ∃ name owner,
      metadata.get? Metadata.Key.name.text = some name ∧ name ≠ "" ∧
        metadata.get? Metadata.Key.owner.text = some owner ∧ owner ≠ "" ∧
          key = nameKey name owner := by
  unfold claim?
  cases metadata.get? Metadata.Key.name.text with
  | none => simp
  | some name =>
      cases metadata.get? Metadata.Key.owner.text with
      | none => simp
      | some owner =>
          by_cases nameless : name = ""
          · simp [nameless]
          · by_cases ownerless : owner = ""
            · simp [ownerless]
            · simp [nameless, ownerless, eq_comm]

/-- The claims are those that the repair goes by. -/
theorem claims_iff {contents : Contents} {identity key : Bytes} :
    Claims contents identity key ↔ claimed? contents identity = some key := by
  unfold Claims claimed? claimOfRecord?
  cases contents.records.get? identity with
  | none => simp
  | some record =>
      cases paid : contents.payloads.get? identity with
      | none => simp [paid]
      | some payload =>
          cases read : Metadata.decode record with
          | error cause => simp [read]
          | ok metadata => simp [read, paid, claim?_eq_some_iff]

theorem live_iff {contents : Contents} {identity : Bytes} :
    Live contents identity ↔ (claimed? contents identity).isSome = true := by
  simp only [Live, claims_iff, Option.isSome_iff_exists]

/-- A name that nobody held goes to the first of its claimants. -/
theorem isLE_of_get?_names {held : OrderedMap Bytes Bytes} {claims : List (Bytes × Bytes)}
    {key holder : Bytes}
    (ordered : claims.Pairwise fun left right => compare left.1 right.1 = .lt)
    (free : held.get? key = none)
    (found : ((repairNames held claims).names held).get? key = some holder) :
    ∀ other, (other, key) ∈ claims → (compare holder other).isLE = true := by
  induction claims generalizing held with
  | nil => simp
  | cons claim rest inductionHypothesis =>
      obtain ⟨identity, wanted⟩ := claim
      obtain ⟨below, ordered⟩ := List.pairwise_cons.1 ordered
      intro other member
      rw [repairNames] at found
      split at found
      · -- the first claim is on another name, since this one is free
        rename_i taken
        have apart : key ≠ wanted := by
          rintro rfl
          rw [free] at taken
          exact absurd taken (by simp)
        have later : (other, key) ∈ rest := by
          rcases List.mem_cons.1 member with same | later
          · exact absurd (Prod.mk.inj same).2 apart
          · exact later
        dsimp only at found
        split at found
        · exact inductionHypothesis ordered free found other later
        · exact inductionHypothesis ordered free found other later
      · by_cases first : key = wanted
        · subst first
          have given : ((repairNames (held.insert key identity) rest).names
              (held.insert key identity)).get? key = some identity :=
            get?_names_of_held (OrderedMap.get?_insert_self _ _ _)
          obtain rfl := Option.some.inj (given.symm.trans found)
          rcases List.mem_cons.1 member with same | later
          · obtain rfl := (Prod.mk.inj same).1
            rw [Std.compare_self]
            rfl
          · rw [below _ later]
            rfl
        · have later : (other, key) ∈ rest := by
            rcases List.mem_cons.1 member with same | later
            · exact absurd (Prod.mk.inj same).2 first
            · exact later
          have freeStill : (held.insert wanted identity).get? key = none :=
            (OrderedMap.get?_insert_of_ne _ _ first).trans free
          exact inductionHypothesis ordered freeStill found other later

/-- After the repair names lead to those who are entitled to them. -/
theorem get?_names_reconciled_iff {contents : Contents} {key identity : Bytes} :
    (reconciled contents).names.get? key = some identity ↔ Entitled contents key identity := by
  have ordered : (liveClaims contents).Pairwise fun left right => compare left.1 right.1 = .lt := by
    rw [liveClaims_eq]
    exact contents.records.filterMap_ascending fun key record =>
      if contents.payloads.contains key then claimOfRecord? record else none
  have kept : ∀ {holder}, (keptNames contents).get? key = some holder ↔
      contents.names.get? key = some holder ∧ Claims contents holder key := by
    intro holder
    rw [get?_keptNames_iff, claims_iff]
  have listed : ∀ {other}, Claims contents other key ↔ (other, key) ∈ liveClaims contents := by
    intro other
    rw [claims_iff, mem_liveClaims_iff]
  -- whoever is found holds the name from before, or nobody did and it went to the smallest
  have entitled : ∀ {holder}, (reconciled contents).names.get? key = some holder →
      Entitled contents key holder := by
    intro holder found
    rcases held_or_claims_of_get?_names found with held | claims
    · exact ⟨(kept.1 held).2, .inl (kept.1 held).1⟩
    · refine ⟨listed.2 claims, ?_⟩
      cases before : (keptNames contents).get? key with
      | some earlier =>
          obtain rfl := Option.some.inj ((get?_names_of_held before).symm.trans found)
          exact .inl (kept.1 before).1
      | none =>
          refine .inr ⟨fun other held claimsToo => ?_, fun other claimsToo => ?_⟩
          · exact absurd (before.symm.trans (kept.2 ⟨held, claimsToo⟩)) (by simp)
          · exact isLE_of_get?_names ordered before found other (listed.1 claimsToo)
  refine ⟨entitled, ?_⟩
  rintro ⟨claims, held | ⟨unheld, smallest⟩⟩
  · exact get?_names_of_held (kept.2 ⟨held, claims⟩)
  · obtain ⟨holder, found⟩ : ∃ holder, (reconciled contents).names.get? key = some holder :=
      get?_names_of_claims (listed.1 claims)
    obtain ⟨claimsToo, held | ⟨_, smallestToo⟩⟩ := entitled found
    · exact absurd claimsToo (unheld holder held)
    · rw [found, Std.LawfulEqOrd.eq_of_compare
        (Std.OrientedCmp.isLE_antisymm (smallestToo _ claims) (smallest _ claimsToo))]

/-- The reconciled contents are what a reconciliation must leave. -/
theorem restores_reconciled (contents : Contents) : Restores contents (reconciled contents) where
  payloads identity payload := by
    rw [reconciled, OrderedMap.get?_filter, Option.filter_eq_some_iff, live_iff]
  records identity record := by
    rw [reconciled, OrderedMap.get?_filter, Option.filter_eq_some_iff, live_iff]
  names _ _ := get?_names_reconciled_iff
  claimed _ _ claims := get?_names_of_claims (mem_liveClaims_iff.2 (claims_iff.1 claims))

/-- No contents but the reconciled ones are what a reconciliation must leave. -/
theorem Restores.eq_reconciled {before after : Contents} (restores : Restores before after) :
    after = reconciled before := by
  have same := restores_reconciled before
  have payloads : after.payloads = (reconciled before).payloads :=
    OrderedMap.ext_get? fun identity => Option.ext fun payload =>
      (restores.payloads identity payload).trans (same.payloads identity payload).symm
  have records : after.records = (reconciled before).records :=
    OrderedMap.ext_get? fun identity => Option.ext fun record =>
      (restores.records identity record).trans (same.records identity record).symm
  have names : after.names = (reconciled before).names :=
    OrderedMap.ext_get? fun key => Option.ext fun identity =>
      (restores.names key identity).trans (same.names key identity).symm
  cases after
  exact Contents.mk.injEq .. |>.mpr ⟨payloads, names, records⟩

/-- The calls of a reconciliation: every region is visited, and a plan that changes something
is committed. -/
def calls (contents : Contents) : List (Call × Batch) :=
  [(.scan, .empty), (.scan, .empty), (.scan, .empty)] ++
    if (plan contents).batch.isEmpty then [] else [(.commit, (plan contents).batch)]

section

variable {rule : KeyRule} {contents : Contents}

theorem makes_emitAll (events : List Event) :
    Makes rule (emitAll events) contents [] (.ok ()) contents := by
  induction events with
  | nil => exact Makes.give ()
  | cons event rest inductionHypothesis =>
      exact Makes.andThen (Makes.emitIf true event) inductionHypothesis (.inl rfl)

/-- A survey visits every region. -/
theorem makes_survey :
    Makes rule survey contents [(.scan, .empty), (.scan, .empty), (.scan, .empty)] (.ok contents)
      contents := by
  have payloads : Makes rule (Session.scan .payload fun payloads => return payloads : Session _)
      contents [(.scan, .empty)] (.ok contents.payloads) contents :=
    Makes.scan (Makes.give contents.payloads)
  have records : Makes rule
      (Session.scan .metadata fun records => do
        emitAll (unreadableRecords records.entries)
        return records : Session _)
      contents [(.scan, .empty)] (.ok contents.records) contents :=
    Makes.scan (Makes.andThen (makes_emitAll _) (Makes.give contents.records) (.inl rfl))
  have names : Makes rule (Session.scan .name fun names => return names : Session _)
      contents [(.scan, .empty)] (.ok contents.names) contents :=
    Makes.scan (Makes.give contents.names)
  refine Makes.andThen payloads (Makes.andThen records ?_ (.inl rfl)) (.inl rfl)
  exact Makes.andThen names (Makes.give contents) (.inl rfl)

/-- A reconciliation makes its calls and ends as the commit of its plan does. -/
theorem makes_reconcile {bucket : Bucket} {result : Except StoreError Report} {after : Contents}
    (ended : match contents.commit rule (plan contents).batch with
      | .ok _ => result = .ok (plan contents).report ∧ after = reconciled contents
      | .error error => result = .error error ∧ after = contents) :
    Makes rule bucket.reconcile contents (calls contents) result after := by
  have reported : ∀ left : Contents, Makes rule (do
      Session.emitIf (!(plan contents).report.isClean) (.repaired (plan contents).report)
      return (plan contents).report : Session Report) left [] (.ok (plan contents).report) left :=
    fun _ => Makes.andThen (Makes.emitIf _ _) (Makes.give _) (.inl rfl)
  refine Makes.andThen makes_survey ?_ (.inl rfl)
  generalize made : (if (plan contents).batch.isEmpty then ([] : List (Call × Batch))
    else [(.commit, (plan contents).batch)]) = later
  rw [← List.nil_append later]
  refine Makes.andThen (makes_emitAll _) ?_ (.inl rfl)
  dsimp only
  split
  · rename_i empty
    have nothing : contents.commit rule (plan contents).batch = .ok contents := by
      rw [batch_eq_empty empty, Contents.commit_empty]
    rw [nothing, reconciled_of_isEmpty empty] at ended
    obtain ⟨rfl, rfl⟩ := ended
    rw [if_pos empty] at made
    subst made
    exact reported after
  · rename_i something
    rw [if_neg something] at made
    subst made
    cases committed : contents.commit rule (plan contents).batch with
    | ok left =>
        obtain rfl := commit_plan committed
        rw [committed] at ended
        obtain ⟨rfl, rfl⟩ := ended
        have writes : Makes rule (Session.commit (plan contents).batch) contents
            [(.commit, (plan contents).batch)] (.ok ()) (reconciled contents) :=
          Makes.commit (by rw [committed]; exact ⟨rfl, rfl⟩)
        exact Makes.andThen writes (reported _) (.inr rfl)
    | error error =>
        rw [committed] at ended
        obtain ⟨rfl, rfl⟩ := ended
        exact Makes.failing (Makes.commit (by rw [committed]; exact ⟨rfl, rfl⟩))

end

/-- How the calls of a reconciliation end: with the first refusal by the hazard, or with the
refusal of the one commit by the engine. -/
def verdict (store : Store) : Except StoreError Unit := do
  (store.hazard.meetAll (calls store.contents)).1
  let _ ← store.contents.commit store.keyRule (plan store.contents).batch

/-- An engine in memory refuses no write of a plan. -/
theorem commit_plan_unrestricted (contents : Contents) :
    contents.commit .unrestricted (plan contents).batch = .ok (reconciled contents) := by
  have sure : ∀ write ∈ (plan contents).batch.writes, KeyRule.unrestricted.IsSure write := by
    intro write member
    simp only [Plan.batch, List.mem_append, List.mem_map, List.mem_flatMap, List.mem_cons,
      List.not_mem_nil, or_false] at member
    rcases member with ((⟨_, _, rfl⟩ | ⟨_, _, rfl | rfl⟩) | ⟨_, _, rfl⟩) | ⟨_, _, rfl⟩ <;> rfl
  have done := @Contents.applyAll_of_sure _ contents _ sure
  exact done.trans (congrArg Except.ok (commit_plan done))

/-- On a calm engine in memory a reconciliation does its plan, whatever there is. -/
theorem run_reconcile_calm (bucket : Bucket) (contents : Contents) (events : List Event) :
    ∃ later, bucket.reconcile.run.run { contents, events }
      = (.ok (plan contents).report, { contents := reconciled contents, events := later }) := by
  have makes : Makes .unrestricted bucket.reconcile contents (calls contents)
      (.ok (plan contents).report) (reconciled contents) :=
    makes_reconcile (by rw [commit_plan_unrestricted]; exact ⟨rfl, rfl⟩)
  obtain ⟨later, run⟩ := makes { contents, events } trivial rfl rfl
  rw [Hazard.meetAll_none] at run
  exact ⟨later, run⟩

/-- How a reconciliation ends by the verdict on its calls: with what it must leave, or with
the failure and without any change. -/
def Concludes (verdict : Except StoreError Unit) (before : Contents)
    (result : Except StoreError Report) (after : Contents) : Prop :=
  match verdict with
  | .ok () => ∃ report, result = .ok report ∧ Restores before after
  | .error error => result = .error error ∧ after = before

/-- Where nobody else writes, a reconciliation ends by the verdict on its calls. -/
theorem concludes_reconcile {bucket : Bucket} {store : Store} (alone : store.hazard.IsAlone) :
    Concludes (verdict store) store.contents (bucket.reconcile.run.run store).1
      (bucket.reconcile.run.run store).2.contents := by
  cases committed : store.contents.commit store.keyRule (plan store.contents).batch with
  | ok left =>
      have makes : Makes store.keyRule bucket.reconcile store.contents (calls store.contents)
          (.ok (plan store.contents).report) (reconciled store.contents) :=
        makes_reconcile (by rw [committed]; exact ⟨rfl, rfl⟩)
      obtain ⟨events, run⟩ := makes store alone rfl rfl
      rw [run, verdict, committed]
      rcases store.hazard.meetAll (calls store.contents) with ⟨refusal | _, hazard⟩
      · exact ⟨rfl, rfl⟩
      · exact ⟨_, rfl, restores_reconciled store.contents⟩
  | error error =>
      have makes : Makes store.keyRule bucket.reconcile store.contents (calls store.contents)
          (.error error) store.contents :=
        makes_reconcile (by rw [committed]; exact ⟨rfl, rfl⟩)
      obtain ⟨events, run⟩ := makes store alone rfl rfl
      rw [run, verdict, committed]
      rcases store.hazard.meetAll (calls store.contents) with ⟨refusal | _, hazard⟩
      · exact ⟨rfl, rfl⟩
      · exact ⟨rfl, rfl⟩

/-- Whatever an engine in memory holds, a reconciliation succeeds and leaves what it must
leave. On any engine it ends by the verdict on its calls: the first that is refused is the
failure of the reconciliation, which then changes nothing. -/
theorem restores_of_reconcile (bucket : Bucket) :
    (∀ contents : Contents, ∃ report,
      (bucket.reconcile.run.run { contents }).1 = .ok report ∧
        Restores contents (bucket.reconcile.run.run { contents }).2.contents) ∧
    ∀ store : Store, store.hazard.IsAlone →
      Concludes (verdict store) store.contents (bucket.reconcile.run.run store).1
        (bucket.reconcile.run.run store).2.contents := by
  refine ⟨fun contents => ?_, fun store alone => concludes_reconcile alone⟩
  have through : verdict { contents } = .ok () := by
    simp only [verdict, Hazard.meetAll_none, commit_plan_unrestricted]
    rfl
  have concludes := @concludes_reconcile bucket { contents } trivial
  rwa [through] at concludes

/-- Two reports claim a name that a ghost holds. The smaller one gets it, unless the third
scan fails. -/
theorem restores_of_contested_name :
    let first := Object.report.entry
    let second := Object.secondReport.entry
    let complete := (({} : Contents).withPayloads [second, first]).withRecord second
      |>.withRecord first
    let contents := { complete with names := OrderedMap.empty.insert first.nameKey [103] }
    let bucket : Bucket := ⟨{}, none⟩
    let hindered : Store := { contents, hazard := .gated [(.scan, 2)] }
    (∃ report, (bucket.reconcile.run.run { contents }).1 = .ok report ∧
      Restores contents (bucket.reconcile.run.run { contents }).2.contents) ∧
    (bucket.reconcile.run.run { contents }).2.contents.names.get? first.nameKey
      = some first.key ∧
    verdict hindered = .error (.engine "injected scan") ∧
    Concludes (verdict hindered) contents (bucket.reconcile.run.run hindered).1
      (bucket.reconcile.run.run hindered).2.contents := by
  intro first second complete contents bucket hindered
  refine ⟨(restores_of_reconcile bucket).1 contents, by decide +kernel, by decide +kernel, ?_⟩
  exact (restores_of_reconcile bucket).2 hindered trivial

end Depot.Reconciliation
