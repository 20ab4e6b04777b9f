import Depot.Proofs.Reconciliation.Specification
import Depot.Proofs.Session.Telling

/-!
# Whom a reconciliation warns of

A name has one holder after a reconciliation. Whoever else claims it stays live, goes without
the name and is warned of, together with the holder; nobody else is. So a report that counts no
repair can come with warnings.
-/

namespace Depot.Reconciliation

variable {held : OrderedMap Bytes Bytes} {claims : List (Bytes × Bytes)} {contents : Contents}
  {key holder identity : Bytes}

/-- What the first claim adds to the refused ones, and the names that the rest is given. -/
theorem repairNames_cons (held : OrderedMap Bytes Bytes) (first wanted : Bytes)
    (rest : List (Bytes × Bytes)) :
    match held.get? wanted with
    | some earlier =>
      (repairNames held ((first, wanted) :: rest)).refused
          = (if earlier = first then [] else [(wanted, earlier, first)])
            ++ (repairNames held rest).refused ∧
        (repairNames held ((first, wanted) :: rest)).names held = (repairNames held rest).names held
    | none =>
      (repairNames held ((first, wanted) :: rest)).refused
          = (repairNames (held.insert wanted first) rest).refused ∧
        (repairNames held ((first, wanted) :: rest)).names held
          = (repairNames (held.insert wanted first) rest).names (held.insert wanted first) := by
  rw [repairNames]
  cases held.get? wanted with
  | none => exact ⟨rfl, rfl⟩
  | some earlier =>
      dsimp only
      split
      · exact ⟨rfl, rfl⟩
      · exact ⟨rfl, rfl⟩

/-- A claim is refused if another than the claimant holds the name after the repair. -/
theorem mem_refused_iff : (key, holder, identity) ∈ (repairNames held claims).refused ↔
    (identity, key) ∈ claims ∧ ((repairNames held claims).names held).get? key = some holder ∧
      holder ≠ identity := by
  induction claims generalizing held with
  | nil => simp [repairNames]
  | cons claim rest inductionHypothesis =>
      obtain ⟨first, wanted⟩ := claim
      have repaired := repairNames_cons held first wanted rest
      cases taken : held.get? wanted with
      | some earlier =>
          rw [taken] at repaired
          obtain ⟨refused, names⟩ := repaired
          -- who held the name before holds it after the repair
          have holds : ((repairNames held rest).names held).get? wanted = some earlier :=
            get?_names_of_held taken
          rw [refused, names, List.mem_append, inductionHypothesis, List.mem_cons, or_and_right]
          refine or_congr ?_ Iff.rfl
          constructor
          · intro listed
            split at listed
            · exact absurd listed List.not_mem_nil
            · rename_i other
              obtain ⟨rfl, rfl, rfl⟩ : key = wanted ∧ holder = earlier ∧ identity = first := by
                simpa using listed
              exact ⟨rfl, holds, other⟩
          · rintro ⟨own, found, other⟩
            obtain ⟨rfl, rfl⟩ := Prod.mk.inj own
            obtain rfl := Option.some.inj (holds.symm.trans found)
            rw [if_neg other]
            exact List.mem_singleton.2 rfl
      | none =>
          rw [taken] at repaired
          obtain ⟨refused, names⟩ := repaired
          have given : ((repairNames (held.insert wanted first) rest).names
              (held.insert wanted first)).get? wanted = some first :=
            get?_names_of_held (OrderedMap.get?_insert_self _ _ _)
          rw [refused, names, inductionHypothesis, List.mem_cons]
          refine and_congr_left fun kept => (or_iff_right fun own => ?_).symm
          obtain ⟨found, other⟩ := kept
          obtain ⟨rfl, rfl⟩ := Prod.mk.inj own
          exact other (Option.some.inj (found.symm.trans given))

/-- The events of a reconciliation that comes to its end. -/
def told (contents : Contents) : List Event :=
  unreadableRecords contents.records.entries
    ++ ((plan contents).names.refused.map (fun (key, holder, identity) =>
        .nameHeld key holder identity)
      ++ if !(plan contents).report.isClean then [.repaired (plan contents).report] else [])

/-- Live identities that go without the name that they claim are warned of, and nobody else. -/
theorem nameHeld_mem_told_iff : .nameHeld key holder identity ∈ told contents ↔
    Claims contents identity key ∧ (reconciled contents).names.get? key = some holder ∧
      holder ≠ identity := by
  have unreadable : Event.nameHeld key holder identity
      ∉ unreadableRecords contents.records.entries := by
    simp only [unreadableRecords, List.mem_filterMap, not_exists, not_and]
    intro entry _
    split <;> simp
  have refused : Event.nameHeld key holder identity ∈ told contents ↔
      (key, holder, identity) ∈ (plan contents).names.refused := by
    simp [told, unreadable]
  rw [refused, claims_iff, ← mem_liveClaims_iff]
  exact mem_refused_iff

theorem tells_emitAll (events : List Event) : Tells (emitAll events) contents events () contents := by
  induction events with
  | nil => exact Tells.give ()
  | cons event rest inductionHypothesis => exact Tells.andThen (Tells.emit event) inductionHypothesis

/-- A survey tells which records cannot be read. -/
theorem tells_survey (contents : Contents) :
    Tells survey contents (unreadableRecords contents.records.entries) contents contents := by
  have payloads : Tells (Session.scan .payload fun payloads => return payloads : Session _)
      contents [] contents.payloads contents := Tells.scan (Tells.give contents.payloads)
  have records : Tells
      (Session.scan .metadata fun records => do
        emitAll (unreadableRecords records.entries)
        return records : Session _)
      contents (unreadableRecords contents.records.entries ++ []) contents.records contents :=
    Tells.scan (Tells.andThen (tells_emitAll _) (Tells.give contents.records))
  have names : Tells (Session.scan .name fun names => return names : Session _)
      contents [] contents.names contents := Tells.scan (Tells.give contents.names)
  have whole : Tells survey contents
      ([] ++ (unreadableRecords contents.records.entries ++ [] ++ ([] ++ []))) contents
      contents := by
    refine Tells.andThen payloads (Tells.andThen records ?_)
    exact Tells.andThen names (Tells.give contents)
  simpa only [List.nil_append, List.append_nil] using whole

/-- A reconciliation that comes to its end tells its events, whichever calls it might have been
refused. -/
theorem tells_reconcile {bucket : Bucket} :
    Tells bucket.reconcile contents (told contents) (plan contents).report
      (reconciled contents) := by
  have finished : Tells (do
      Session.emitIf (!(plan contents).report.isClean) (.repaired (plan contents).report)
      return (plan contents).report : Session Report) (reconciled contents)
      ((if !(plan contents).report.isClean then [.repaired (plan contents).report] else []) ++ [])
      (plan contents).report (reconciled contents) :=
    Tells.andThen (Tells.emitIf _ _) (Tells.give _)
  have whole : Tells bucket.reconcile contents
      (unreadableRecords contents.records.entries
        ++ ((plan contents).names.refused.map (fun (key, holder, identity) =>
            .nameHeld key holder identity)
          ++ ([] ++ ((if !(plan contents).report.isClean then
              [.repaired (plan contents).report] else []) ++ []))))
      (plan contents).report (reconciled contents) := by
    refine Tells.andThen (tells_survey contents) (Tells.andThen (tells_emitAll _) ?_)
    dsimp only
    split
    · rename_i empty
      rwa [reconciled_of_isEmpty empty] at finished ⊢
    · exact Tells.andThen (Tells.commit fun _ _ => commit_plan) finished
  simp only [List.nil_append, List.append_nil] at whole
  exact whole

end Depot.Reconciliation
