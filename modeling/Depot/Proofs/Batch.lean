import Depot.Batch
import Depot.Proofs.OrderedMap

/-!
# What batches do

A batch that is committed has done its writes one after the other. Each theorem says
when a commit succeeds and what it leaves; which failure another commit ends in is
not said here.
-/

namespace Depot

namespace Batch

/-- Joined batches do their writes in the order of the batches. -/
theorem writes_join (batches : List Batch) : (join batches).writes = batches.flatMap writes := by
  have folded : ∀ start : Batch,
      (batches.foldl extend start).writes = start.writes ++ batches.flatMap writes := by
    induction batches with
    | nil => simp
    | cons batch rest inductionHypothesis =>
        intro start
        simp [inductionHypothesis, extend]
  exact folded empty

end Batch

/-- A write is done whatever a store holds: its key is admitted and need not be new. -/
def KeyRule.IsSure (rule : KeyRule) : Write → Prop
  | .put _ key _ => rule.admitsBinding key = true
  | .putNew _ _ _ => False
  | .delete _ key => rule.admitsLookup key = true

/-- Every key but the empty one may be looked up. -/
theorem KeyRule.admitsLookup_of_ne_nil {key : Bytes} (rule : KeyRule) (present : key ≠ []) :
    rule.admitsLookup key = true := by
  simp [admitsLookup, present]

/-- The region and the key that a write changes. -/
def Write.place : Write → Region × Bytes
  | .put region key _ | .putNew region key _ | .delete region key => (region, key)

namespace Contents

variable {rule : KeyRule} {contents after : Contents} {region : Region} {key value : Bytes}

/-- A binding is made if the engine admits the key. -/
theorem apply_put_eq_ok_iff :
    contents.apply rule (.put region key value) = .ok after ↔
      rule.admitsBinding key = true ∧ contents.update region (·.insert key value) = after := by
  simp only [apply]
  split
  · rename_i admitted
    simp [admitted]
  · rename_i refused
    simp [refused]

theorem apply_putNew_eq_ok_iff :
    contents.apply rule (.putNew region key value) = .ok after ↔
      rule.admitsBinding key = true ∧ contents.get? region key = none ∧
        contents.update region (·.insert key value) = after := by
  simp only [apply]
  split
  · rename_i admitted
    cases contents.get? region key <;> simp [admitted]
  · rename_i refused
    simp [refused]

theorem apply_delete_eq_ok_iff :
    contents.apply rule (.delete region key) = .ok after ↔
      rule.admitsLookup key = true ∧ contents.update region (·.erase key) = after := by
  simp only [apply]
  split
  · rename_i admitted
    simp [admitted]
  · rename_i refused
    simp [refused]

@[simp] theorem applyAll_nil : contents.applyAll rule [] = .ok contents := rfl

/-- The first write is done before the rest. -/
theorem applyAll_cons_eq_ok_iff {write : Write} {rest : List Write} :
    contents.applyAll rule (write :: rest) = .ok after ↔
      ∃ between, contents.apply rule write = .ok between ∧
        between.applyAll rule rest = .ok after := by
  rw [applyAll]
  cases contents.apply rule write <;> simp

/-- The first writes are done before the others, which are not done if one of the first is
refused. -/
theorem applyAll_append (first second : List Write) :
    contents.applyAll rule (first ++ second)
      = contents.applyAll rule first >>= fun between => between.applyAll rule second := by
  induction first generalizing contents with
  | nil => rfl
  | cons write rest inductionHypothesis =>
      rw [List.cons_append, applyAll, applyAll]
      cases contents.apply rule write with
      | error error => rfl
      | ok next => exact inductionHypothesis

theorem applyAll_append_eq_ok_iff {first second : List Write} :
    contents.applyAll rule (first ++ second) = .ok after ↔
      ∃ between, contents.applyAll rule first = .ok between ∧
        between.applyAll rule second = .ok after := by
  rw [applyAll_append]
  cases contents.applyAll rule first <;> simp [bind, Except.bind]

@[simp] theorem commit_empty : contents.commit rule Batch.empty = .ok contents := rfl

/-- A batch and its extension are committed one after the other. -/
theorem commit_extend (batch other : Batch) :
    contents.commit rule (batch.extend other)
      = contents.commit rule batch >>= fun between => between.commit rule other :=
  applyAll_append batch.writes other.writes

theorem commit_extend_eq_ok_iff {batch other : Batch} :
    contents.commit rule (batch.extend other) = .ok after ↔
      ∃ between, contents.commit rule batch = .ok between ∧
        between.commit rule other = .ok after :=
  applyAll_append_eq_ok_iff

/-- Joined batches are committed one after the other. -/
theorem commit_join_cons (batch : Batch) (rest : List Batch) :
    contents.commit rule (Batch.join (batch :: rest))
      = contents.commit rule batch >>= fun between => between.commit rule (Batch.join rest) := by
  simp only [commit, Batch.writes_join, List.flatMap_cons, applyAll_append]

theorem commit_join_cons_eq_ok_iff {batch : Batch} {rest : List Batch} :
    contents.commit rule (Batch.join (batch :: rest)) = .ok after ↔
      ∃ between, contents.commit rule batch = .ok between ∧
        between.commit rule (Batch.join rest) = .ok after := by
  simp only [commit, Batch.writes_join, List.flatMap_cons, applyAll_append_eq_ok_iff]

/-- A batch of one binding. -/
theorem commit_put_eq_ok_iff :
    contents.commit rule (Batch.empty.put region key value) = .ok after ↔
      rule.admitsBinding key = true ∧ contents.update region (·.insert key value) = after := by
  simp [commit, Batch.put, Batch.empty, applyAll_cons_eq_ok_iff, apply_put_eq_ok_iff]

theorem commit_putNew_eq_ok_iff :
    contents.commit rule (Batch.empty.putNew region key value) = .ok after ↔
      rule.admitsBinding key = true ∧ contents.get? region key = none ∧
        contents.update region (·.insert key value) = after := by
  simp [commit, Batch.putNew, Batch.empty, applyAll_cons_eq_ok_iff, apply_putNew_eq_ok_iff]

theorem commit_delete_eq_ok_iff :
    contents.commit rule (Batch.empty.delete region key) = .ok after ↔
      rule.admitsLookup key = true ∧ contents.update region (·.erase key) = after := by
  simp [commit, Batch.delete, Batch.empty, applyAll_cons_eq_ok_iff, apply_delete_eq_ok_iff]

/-- What a write does when it is done. -/
def write (contents : Contents) : Write → Contents
  | .put region key value | .putNew region key value => contents.update region (·.insert key value)
  | .delete region key => contents.update region (·.erase key)

/-- A list of writes that succeeds has done them all. -/
theorem applyAll_eq_ok {writes : List Write} (done : contents.applyAll rule writes = .ok after) :
    after = writes.foldl write contents := by
  induction writes generalizing contents with
  | nil => exact (Except.ok.inj done).symm
  | cons write rest inductionHypothesis =>
      obtain ⟨between, first, others⟩ := applyAll_cons_eq_ok_iff.1 done
      have written : contents.write write = between := by
        cases write with
        | put => exact (apply_put_eq_ok_iff.1 first).2
        | putNew => exact (apply_putNew_eq_ok_iff.1 first).2.2
        | delete => exact (apply_delete_eq_ok_iff.1 first).2
      rw [List.foldl_cons, written]
      exact inductionHypothesis others

/-- A list of writes that are all sure to be done is done. -/
theorem applyAll_of_sure {writes : List Write} (sure : ∀ write ∈ writes, rule.IsSure write) :
    contents.applyAll rule writes = .ok (writes.foldl write contents) := by
  induction writes generalizing contents with
  | nil => rfl
  | cons first rest inductionHypothesis =>
      obtain ⟨here, later⟩ := List.forall_mem_cons.1 sure
      have done : contents.apply rule first = .ok (contents.write first) := by
        cases first with
        | put => exact apply_put_eq_ok_iff.2 ⟨here, rfl⟩
        | putNew => exact here.elim
        | delete => exact apply_delete_eq_ok_iff.2 ⟨here, rfl⟩
      exact applyAll_cons_eq_ok_iff.2 ⟨_, done, inductionHypothesis later⟩

/-- A write is refused by the rule of the engine, or because its key must be new and has a
value. -/
theorem cause_of_apply {write : Write} {error : StoreError}
    (refused : contents.apply rule write = .error error) :
    error = KeyRule.refusal ∨
      ∃ region key value, write = .putNew region key value ∧ error = .keyTaken region key := by
  cases write with
  | put region key value =>
      rw [apply] at refused
      split at refused
      · exact absurd refused (by simp)
      · exact .inl (Except.error.inj refused).symm
  | putNew region key value =>
      rw [apply] at refused
      split at refused
      · split at refused
        · exact .inr ⟨region, key, value, rfl, (Except.error.inj refused).symm⟩
        · exact absurd refused (by simp)
      · exact .inl (Except.error.inj refused).symm
  | delete region key =>
      rw [apply] at refused
      split at refused
      · exact absurd refused (by simp)
      · exact .inl (Except.error.inj refused).symm

/-- A list of writes is refused for one of them. -/
theorem cause_of_applyAll {writes : List Write} {error : StoreError}
    (refused : contents.applyAll rule writes = .error error) :
    error = KeyRule.refusal ∨
      ∃ region key value, .putNew region key value ∈ writes ∧ error = .keyTaken region key := by
  induction writes generalizing contents with
  | nil => exact absurd refused (by simp)
  | cons write rest inductionHypothesis =>
      rw [applyAll] at refused
      split at refused
      · rename_i failed
        refine (cause_of_apply (failed.trans refused)).imp_right ?_
        rintro ⟨region, key, value, rfl, taken⟩
        exact ⟨region, key, value, List.mem_cons_self, taken⟩
      · refine (inductionHypothesis refused).imp_right ?_
        rintro ⟨region, key, value, later, taken⟩
        exact ⟨region, key, value, List.mem_cons_of_mem _ later, taken⟩

/-- Writes are refused for their keys, never because an object is missing. -/
theorem isNotFound_of_applyAll {writes : List Write} {error : StoreError}
    (refused : contents.applyAll rule writes = .error error) : error.isNotFound = false := by
  rcases cause_of_applyAll refused with rfl | ⟨_, _, _, _, rfl⟩
  · rfl
  · rfl

/-- A change that leaves its region as it is changes nothing. -/
theorem update_of_eq {change : OrderedMap Bytes Bytes → OrderedMap Bytes Bytes}
    (same : change (contents.region region) = contents.region region) :
    contents.update region change = contents := by
  cases region with
  | payload => exact congrArg (fun payloads => { contents with payloads }) same
  | name => exact congrArg (fun names => { contents with names }) same
  | metadata => exact congrArg (fun records => { contents with records }) same

/-- Changes of one region, one after the other, are one change. -/
theorem update_update (contents : Contents) (region : Region)
    (first second : OrderedMap Bytes Bytes → OrderedMap Bytes Bytes) :
    (contents.update region first).update region second
      = contents.update region fun entries => second (first entries) := by
  cases region <;> rfl

/-! ## What keys look up -/

/-- Contents are equal if all keys look up the same in all regions. -/
theorem ext_get? {left right : Contents}
    (same : ∀ region key, left.get? region key = right.get? region key) : left = right := by
  obtain ⟨payloads, names, records⟩ := left
  obtain ⟨otherPayloads, otherNames, otherRecords⟩ := right
  obtain rfl : payloads = otherPayloads := OrderedMap.ext_get? (same .payload)
  obtain rfl : names = otherNames := OrderedMap.ext_get? (same .name)
  obtain rfl : records = otherRecords := OrderedMap.ext_get? (same .metadata)
  rfl

/-- A change of one region is seen in this region only. -/
theorem get?_update (contents : Contents) (region other : Region)
    (change : OrderedMap Bytes Bytes → OrderedMap Bytes Bytes) (key : Bytes) :
    (contents.update region change).get? other key
      = if other = region then (change (contents.region region)).get? key
        else contents.get? other key := by
  cases region <;> cases other <;> rfl

/-- A write changes nothing but its place. -/
theorem get?_write_of_ne {write : Write} (apart : (region, key) ≠ write.place) :
    (contents.write write).get? region key = contents.get? region key := by
  have elsewhere : ∀ change : OrderedMap Bytes Bytes → OrderedMap Bytes Bytes,
      (region = write.place.1 → (change (contents.region write.place.1)).get? key
        = (contents.region write.place.1).get? key) →
      (contents.update write.place.1 change).get? region key = contents.get? region key := by
    intro change kept
    rw [get?_update]
    split
    · rename_i same
      rw [kept same, get?, same]
    · rfl
  have other : region = write.place.1 → key ≠ write.place.2 := fun same equal =>
    apart (Prod.ext same equal)
  cases write with
  | put => exact elsewhere _ fun same => OrderedMap.get?_insert_of_ne _ _ (other same)
  | putNew => exact elsewhere _ fun same => OrderedMap.get?_insert_of_ne _ _ (other same)
  | delete => exact elsewhere _ fun same => OrderedMap.get?_erase_of_ne _ (other same)

/-- What a write leaves in its place does not depend on what was there. -/
theorem get?_write_place (left right : Contents) (write : Write) :
    (left.write write).get? write.place.1 write.place.2
      = (right.write write).get? write.place.1 write.place.2 := by
  cases write with
  | put => simp [Contents.write, Write.place, get?_update]
  | putNew => simp [Contents.write, Write.place, get?_update]
  | delete => simp [Contents.write, Write.place, get?_update]

/-! ## Going back -/

/-- A region that was changed at one key is as before once the key is restored. -/
theorem restore_update {change : OrderedMap Bytes Bytes → OrderedMap Bytes Bytes}
    (elsewhere : ∀ sought, sought ≠ key →
      (change (contents.region region)).get? sought = (contents.region region).get? sought) :
    (contents.update region change).restore ⟨region, key, contents.get? region key⟩ = contents := by
  have restored := OrderedMap.restored_of_get?_eq elsewhere
  rw [restore, get?]
  cases held : (contents.region region).get? key with
  | some value =>
      rw [held] at restored
      simp only [update_update]
      exact update_of_eq restored
  | none =>
      rw [held] at restored
      simp only [update_update]
      exact update_of_eq restored

/-- A write that is done is undone by what it replaced. -/
theorem restore_former {write : Write} (done : contents.apply rule write = .ok after) :
    after.restore (contents.former write) = contents := by
  cases write with
  | put region key value =>
      obtain ⟨_, rfl⟩ := apply_put_eq_ok_iff.1 done
      exact restore_update fun _ apart => OrderedMap.get?_insert_of_ne _ _ apart
  | putNew region key value =>
      obtain ⟨_, free, rfl⟩ := apply_putNew_eq_ok_iff.1 done
      rw [former, ← free]
      exact restore_update fun _ apart => OrderedMap.get?_insert_of_ne _ _ apart
  | delete region key =>
      obtain ⟨_, rfl⟩ := apply_delete_eq_ok_iff.1 done
      exact restore_update fun _ apart => OrderedMap.get?_erase_of_ne _ apart

/-- Writes that are done in place end as the same writes on a copy do. If one is refused, the
contents are those to which the log leads back. -/
theorem perform_eq (log : List Former) (writes : List Write) :
    contents.perform rule log writes = match contents.applyAll rule writes with
      | .ok after => (.ok (), after)
      | .error error => (.error error, contents.undo log) := by
  -- every write adds to the log what leads back to the contents before it
  induction writes generalizing contents log with
  | nil => rfl
  | cons write rest inductionHypothesis =>
      rw [perform, applyAll]
      cases done : contents.apply rule write with
      | error error => rfl
      | ok next =>
          have back : next.undo (contents.former write :: log) = contents.undo log := by
            rw [undo, List.foldl_cons, restore_former done, undo]
          simp only [inductionHypothesis, back]

/-- A batch is committed as a whole or not at all, although it is written in place. -/
theorem transact_eq (batch : Batch) :
    contents.transact rule batch = match contents.commit rule batch with
      | .ok after => (.ok (), after)
      | .error error => (.error error, contents) :=
  perform_eq [] batch.writes

-- A name is rebound, freed and bound anew before the write that is refused; it holds its first
-- value again.
example :
    let held := ({} : Contents).update .name (·.insert [1] [10])
    held.transact .unrestricted
        ⟨[.put .name [1] [11], .delete .name [1], .putNew .name [1] [12], .putNew .name [1] [13]]⟩
      = (.error (.keyTaken .name [1]), held) := by
  decide +kernel

/-- Removals from a region, one after the other. -/
theorem foldl_write_deletes (contents : Contents) (region : Region) (keys : List Bytes) :
    (keys.map (Write.delete region)).foldl write contents
      = contents.update region fun entries => keys.foldl OrderedMap.erase entries := by
  induction keys generalizing contents with
  | nil => cases region <;> rfl
  | cons key rest inductionHypothesis =>
      simp only [List.map_cons, List.foldl_cons, inductionHypothesis, write, update_update]

/-- Bindings in a region, one after the other. -/
theorem foldl_write_puts (contents : Contents) (region : Region) (bindings : List (Bytes × Bytes)) :
    (bindings.map fun entry => Write.put region entry.1 entry.2).foldl write contents
      = contents.update region fun entries =>
          bindings.foldl (fun map entry => map.insert entry.1 entry.2) entries := by
  induction bindings generalizing contents with
  | nil => cases region <;> rfl
  | cons entry rest inductionHypothesis =>
      simp only [List.map_cons, List.foldl_cons, inductionHypothesis, write, update_update]

end Contents

end Depot
