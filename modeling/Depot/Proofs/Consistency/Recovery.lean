import Depot.Proofs.Consistency.Records
import Depot.Proofs.Reconciliation.Specification

/-!
# What a reconciliation recovers

A request that is cut short in the independent mode leaves contents that hold consistent
contents within them: all objects of those are complete, and what else is there lacks content
or a record. Whatever the names are by then, a reconciliation leaves exactly the consistent
contents. So objects are stored completely or not at all, and removed completely or not at
all, once a reconciliation has followed.
-/

namespace Depot.Contents

open Reconciliation

variable {before between after contents objects : Contents} {identity : Uuid} {metadata : Metadata}
  {name : String} {owner : Uuid} {entries : List Entry} {count : Nat} {targets : List Uuid}

/-- In consistent contents an identity is live if it has a record. -/
theorem Consistent.live_iff (consistent : objects.Consistent) {key : Bytes} :
    Live objects key ↔ (objects.records.get? key).isSome = true := by
  rw [Reconciliation.live_iff]
  constructor
  · intro live
    obtain ⟨claim, claims⟩ := Option.isSome_iff_exists.1 live
    obtain ⟨record, found, _⟩ := Option.bind_eq_some_iff.1 claims
    rw [found]
    rfl
  · intro present
    obtain ⟨record, found⟩ := Option.isSome_iff_exists.1 present
    obtain ⟨identity, name, owner, rfl, described⟩ := consistent.recorded _ _ found
    have complete := consistent.completes ⟨record, found, described⟩
    rw [consistent.recorded.claimed?_eq_some_iff.2 ⟨identity, name, owner, complete, rfl, rfl⟩]
    rfl

/-! ## Contents within contents -/

/-- Contents hold all objects of other contents, and no other identity in them has both content
and a record. The names may be any. -/
structure Harbours (contents objects : Contents) : Prop where
  payloads : ∀ key payload, objects.payloads.get? key = some payload →
    contents.payloads.get? key = some payload
  records : ∀ key record, objects.records.get? key = some record →
    contents.records.get? key = some record
  /-- What else is there is not complete. -/
  incomplete : ∀ key, objects.records.get? key = none →
    contents.records.get? key = none ∨ contents.payloads.get? key = none

/-- Consistent contents hold the claims that contents around them hold. -/
theorem Harbours.claimed?_eq (harbours : contents.Harbours objects)
    (consistent : objects.Consistent) (key : Bytes) :
    claimed? contents key = claimed? objects key := by
  unfold claimed?
  cases found : objects.records.get? key with
  | none =>
      rcases harbours.incomplete key found with absent | absent
      · rw [absent]
        rfl
      · have unpaid : contents.payloads.contains key = false := by
          rw [OrderedMap.contains_eq_isSome, absent]
          rfl
        rw [unpaid]
        cases contents.records.get? key with
        | none => rfl
        | some record => rfl
  | some record =>
      have paid : objects.payloads.contains key = true := by
        rw [consistent.sameKeys, OrderedMap.contains_eq_isSome, found]
        rfl
      have paidToo : contents.payloads.contains key = true := by
        rw [OrderedMap.contains_eq_isSome] at paid ⊢
        obtain ⟨payload, held⟩ := Option.isSome_iff_exists.1 paid
        rw [harbours.payloads key payload held]
        rfl
      rw [harbours.records key record found, paid, paidToo]

/-- A reconciliation leaves the consistent contents that are held. -/
theorem Harbours.reconciled_eq (harbours : contents.Harbours objects)
    (consistent : objects.Consistent) : reconciled contents = objects := by
  have claims : ∀ {identity key}, Claims contents identity key ↔ Claims objects identity key := by
    intro identity key
    rw [claims_iff, claims_iff, harbours.claimed?_eq consistent]
  have live : ∀ {key}, Live contents key ↔ (objects.records.get? key).isSome = true := by
    intro key
    rw [← consistent.live_iff]
    exact exists_congr fun _ => claims
  have named : ∀ {key holder},
      objects.names.get? key = some holder ↔ Claims objects holder key := by
    intro key holder
    rw [claims_iff]
    exact consistent.get?_names_iff
  refine Eq.symm (Restores.eq_reconciled ⟨fun key payload => ?_, fun key record => ?_, ?_, ?_⟩)
  · rw [live, ← OrderedMap.contains_eq_isSome, ← consistent.sameKeys,
      OrderedMap.contains_eq_isSome]
    constructor
    · exact fun found => ⟨harbours.payloads key payload found, by rw [found]; rfl⟩
    · rintro ⟨found, present⟩
      obtain ⟨own, held⟩ := Option.isSome_iff_exists.1 present
      rwa [held, ← harbours.payloads key own held]
  · rw [live]
    constructor
    · exact fun found => ⟨harbours.records key record found, by rw [found]; rfl⟩
    · rintro ⟨found, present⟩
      obtain ⟨own, held⟩ := Option.isSome_iff_exists.1 present
      rwa [held, ← harbours.records key own held]
  · -- in consistent contents nobody else claims a name, so its claimant is entitled to it
    intro key holder
    rw [named]
    constructor
    · intro claim
      have only : ∀ other, Claims objects other key → other = holder := fun other alsoClaims =>
        Option.some.inj ((named.2 alsoClaims).symm.trans (named.2 claim))
      refine ⟨claims.2 claim, ?_⟩
      by_cases held : contents.names.get? key = some holder
      · exact .inl held
      · refine .inr ⟨fun other found alsoClaims => ?_, fun other alsoClaims => ?_⟩
        · rw [only other (claims.1 alsoClaims)] at found
          exact held found
        · rw [only other (claims.1 alsoClaims), Std.compare_self]
          rfl
    · exact fun entitled => claims.1 entitled.1
  · exact fun key identity claim => ⟨identity, named.2 (claims.1 claim)⟩

/-! ## Objects that are stored -/

/-- What is indexed of entries whose content is there joins the objects that are held. -/
theorem Harbours.indexed (indexed : between.Indexed entries count after)
    (harbours : between.Harbours objects) (sameNames : between.names = objects.names)
    (paid : ∀ entry ∈ entries, between.payloads.get? entry.key = some entry.payload) :
    after.Harbours (objects.withEntries (entries.take count)) ∧
      objects.Admits (entries.take count) := by
  induction indexed generalizing objects with
  | stopped => exact ⟨harbours, by simp, .nil⟩
  | named =>
      exact ⟨⟨harbours.payloads, harbours.records, harbours.incomplete⟩, by simp, .nil⟩
  | @next between after entry rest count free _ inductionHypothesis =>
      obtain ⟨paidHere, paidRest⟩ := List.forall_mem_cons.1 paid
      have joined : ((between.withName entry).withRecord entry).Harbours
          (objects.withEntry entry) := by
        refine ⟨fun key payload found => ?_, fun key record found => ?_, fun key absent => ?_⟩
        · have found : (objects.payloads.insert entry.key entry.payload).get? key = some payload :=
            found
          rw [OrderedMap.get?_insert_eq] at found
          split at found
          · rename_i same
            rw [same, ← found]
            exact paidHere
          · exact harbours.payloads key payload found
        · have found : (objects.records.insert entry.key entry.record).get? key = some record :=
            found
          show (between.records.insert entry.key entry.record).get? key = some record
          rw [OrderedMap.get?_insert_eq] at found ⊢
          split
          · rename_i same
            rwa [if_pos same] at found
          · rename_i apart
            rw [if_neg apart] at found
            exact harbours.records key record found
        · have absent : (objects.records.insert entry.key entry.record).get? key = none := absent
          rw [OrderedMap.get?_insert_eq] at absent
          split at absent
          · exact absurd absent (by simp)
          · rename_i apart
            refine (harbours.incomplete key absent).imp_left fun unrecorded => ?_
            exact (OrderedMap.get?_insert_of_ne _ _ apart).trans unrecorded
      have sameNext : ((between.withName entry).withRecord entry).names
          = (objects.withEntry entry).names :=
        congrArg (fun names => OrderedMap.insert names entry.nameKey entry.key) sameNames
      obtain ⟨harboursNext, admits⟩ := inductionHypothesis joined sameNext paidRest
      rw [sameNames] at free
      exact ⟨harboursNext, Admits.of_withName ⟨admits.free, admits.distinct⟩ free⟩

/-- After new entries are indexed up to some point, a reconciliation leaves exactly those that
are indexed completely. -/
theorem Consistent.reconciled_indexed (consistent : before.Consistent)
    (sound : ∀ entry ∈ entries, entry.Sound)
    (new : ∀ entry ∈ entries, before.records.get? entry.key = none)
    (distinct : (entries.map Entry.identity).Nodup)
    (indexed : (before.withPayloads entries).Indexed entries count after) :
    reconciled after = before.withEntries (entries.take count) := by
  have start : (before.withPayloads entries).Harbours before := by
    refine ⟨fun key payload found => ?_, fun key record found => ?_, fun key absent => ?_⟩
    · rw [get?_payloads_withPayloads_of_ne fun entry member same => ?_]
      · exact found
      · have unpaid := consistent.sameKeys entry.key
        rw [OrderedMap.contains_eq_isSome, OrderedMap.contains_eq_isSome, new entry member, same,
          found] at unpaid
        exact absurd unpaid (by simp)
    · rwa [records_withPayloads]
    · rw [records_withPayloads]
      exact .inl absent
  have paid : ∀ entry ∈ entries,
      (before.withPayloads entries).payloads.get? entry.key = some entry.payload := by
    intro entry member
    obtain ⟨front, back, rfl⟩ := List.append_of_mem member
    rw [List.map_append, List.map_cons, List.nodup_middle, List.nodup_cons] at distinct
    refine get?_payloads_withPayloads fun other later same => distinct.1 ?_
    exact List.mem_append_right _ (List.mem_map.2 ⟨other, later, same⟩)
  obtain ⟨harbours, admits⟩ :=
    Harbours.indexed indexed start (names_withPayloads before entries) paid
  refine harbours.reconciled_eq (consistent.withEntries ?_ admits ?_ ?_)
  · exact fun entry member => sound entry (List.mem_of_mem_take member)
  · exact fun entry member => new entry (List.mem_of_mem_take member)
  · exact distinct.sublist ((List.take_sublist count entries).map _)

/-! ## Objects that are removed -/

/-- Without the objects of these identities: their content, their records, and the names that
lead to them. -/
def except (contents : Contents) (identities : List Uuid) : Contents where
  payloads := contents.payloads.filter fun key _ => identities.all fun gone => key ≠ gone.key
  names := contents.names.filter fun _ holder => identities.all fun gone => holder ≠ gone.key
  records := contents.records.filter fun key _ => identities.all fun gone => key ≠ gone.key

theorem except_nil (contents : Contents) : contents.except [] = contents := by
  obtain ⟨payloads, names, records⟩ := contents
  simp [except, OrderedMap.filter]

/-- Objects are left out one list after the other. -/
theorem except_append (contents : Contents) (first second : List Uuid) :
    (contents.except first).except second = contents.except (first ++ second) := by
  have twice : ∀ (map : OrderedMap Bytes Bytes) (keep other : Bytes → Bytes → Bool),
      (map.filter keep).filter other
        = map.filter fun key value => keep key value && other key value := by
    intro map keep other
    exact OrderedMap.ext (by simp [OrderedMap.filter, List.filter_filter, Bool.and_comm])
  simp [except, twice]

/-- To leave out the object of an identity is to remove its content, its record and its name. -/
theorem Consistent.except_singleton (consistent : before.Consistent)
    (found : before.metadataOf identity = .ok metadata) :
    before.except [identity] = before.without identity metadata := by
  obtain ⟨name, owner, describes, stored⟩ := consistent.recorded.describes found
  have erased : ∀ map : OrderedMap Bytes Bytes,
      (map.filter fun key _ => [identity].all fun gone => key ≠ gone.key)
        = map.erase identity.key := by
    intro map
    refine OrderedMap.ext_get? fun key => ?_
    rw [OrderedMap.get?_filter, OrderedMap.get?_erase_eq]
    by_cases own : key = identity.key
    · simp [own]
    · cases map.get? key <;> simp [own, Option.filter]
  have names : (before.except [identity]).names = (before.without identity metadata).names := by
    refine OrderedMap.ext_get? fun key => Option.ext fun holder => ?_
    rw [except, OrderedMap.get?_filter, Option.filter_eq_some_iff]
    refine Iff.trans ?_ (get?_withoutName_iff describes).symm
    refine and_congr_right fun held => ?_
    -- in consistent contents an object's own name is the only one that leads to it
    have own : identity.key = holder → nameKey name owner.toText = key := by
      rintro rfl
      obtain ⟨other, otherName, otherOwner, otherStored, rfl, same⟩ := (consistent.named _ _).1 held
      obtain rfl := Uuid.key_injective same
      obtain ⟨rfl, rfl⟩ := stored.unique otherStored
      rfl
    constructor
    · rintro apart ⟨_, rfl⟩
      simp at apart
    · intro apart
      have other : holder ≠ identity.key := fun same => apart ⟨own same.symm, same.symm⟩
      simpa using other
  have payloads : (before.except [identity]).payloads
      = (before.without identity metadata).payloads :=
    (erased before.payloads).trans
      (congrArg (fun payloads => payloads.erase identity.key) payloads_withoutName.symm)
  have records : (before.except [identity]).records
      = (before.without identity metadata).records :=
    (erased before.records).trans
      (congrArg (fun records => records.erase identity.key) records_withoutName.symm)
  exact Contents.mk.injEq .. |>.mpr ⟨payloads, names, records⟩

/-- A deletion that is cut short is undone or completed by a reconciliation. -/
theorem Consistent.reconciled_interrupted {mode : WriteMode} (consistent : before.Consistent)
    (interrupted : before.Interrupted mode identity after) :
    reconciled after = before ∨ reconciled after = before.except [identity] := by
  cases interrupted with
  | @unnamed metadata _ found =>
      have harbours : (before.withoutName identity metadata).Harbours before := by
        refine ⟨fun _ _ held => ?_, fun _ _ held => ?_, fun _ absent => .inl ?_⟩
        · rwa [payloads_withoutName]
        · rwa [records_withoutName]
        · rwa [records_withoutName]
      exact .inl (harbours.reconciled_eq consistent)
  | @emptied metadata _ found =>
      have harbours : ((before.withoutName identity metadata).withoutPayload identity).Harbours
          (before.without identity metadata) := by
        refine ⟨fun _ _ held => held, fun key record held => ?_, fun key absent => ?_⟩
        · have held : ((before.withoutName identity metadata).records.erase identity.key).get? key
              = some record := held
          exact (OrderedMap.get?_of_get?_erase held).2
        · have absent : ((before.withoutName identity metadata).records.erase identity.key).get? key
              = none := absent
          rw [OrderedMap.get?_erase_eq] at absent
          split at absent
          · rename_i own
            have removed : ((before.withoutName identity metadata).payloads.erase
                identity.key).get? identity.key = none := OrderedMap.get?_erase_self _ _
            rw [own]
            exact .inr removed
          · exact .inl absent
      rw [consistent.except_singleton found]
      exact .inr (harbours.reconciled_eq (consistent.without found))

/-- Complete removals keep contents consistent, and leave out objects. -/
theorem Consistent.cleared (consistent : before.Consistent)
    (cleared : before.Cleared targets after) :
    after.Consistent ∧ ∃ gone, gone ⊆ targets ∧ after = before.except gone := by
  induction cleared with
  | refl => exact ⟨consistent, [], by simp, before.except_nil.symm⟩
  | tail _ clears inductionHypothesis =>
      obtain ⟨consistentNow, gone, within, rfl⟩ := inductionHypothesis
      obtain ⟨identity, member, metadata, found, rfl⟩ := clears
      refine ⟨consistentNow.without found, gone ++ [identity], by simp [within, member], ?_⟩
      rw [← consistentNow.except_singleton found, except_append]

/-- After deletions, also if the last is cut short, a reconciliation leaves out some of the
objects that were to be removed, and leaves all others as they were. -/
theorem Consistent.reconciled_pruned {mode : WriteMode} (consistent : before.Consistent)
    (pruned : before.Pruned mode targets after) :
    ∃ gone, gone ⊆ targets ∧ reconciled after = before.except gone := by
  obtain ⟨between, cleared, left⟩ := pruned
  obtain ⟨consistentNow, gone, within, rfl⟩ := consistent.cleared cleared
  rcases left with rfl | ⟨identity, member, interrupted⟩
  · exact ⟨gone, within, consistentNow.reconciled_eq⟩
  · rcases consistentNow.reconciled_interrupted interrupted with undone | completed
    · exact ⟨gone, within, undone⟩
    · refine ⟨gone ++ [identity], by simp [within, member], ?_⟩
      rw [completed, except_append]

end Depot.Contents
