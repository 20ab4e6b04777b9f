import Depot.Proofs.Session.Footprint

/-!
# Work that leaves a name alone

Which names work reads and writes is told from outside: work overlooks a name if another holder
of it, or none, changes neither the result nor anything else that is left, and the holder stays
as it is. Work does so if its footprint leaves the name alone: keys are looked up and written
elsewhere, and the name region is not visited as a whole. Calls may be refused in any pattern.
-/

namespace Depot

/-- The contents with a holder for a name, or with none. -/
def Contents.rebind (contents : Contents) (key : Bytes) (holder : Option Bytes) : Contents :=
  contents.restore ⟨.name, key, holder⟩

/-- The store with a holder for a name, or with none. -/
def Store.rebind (store : Store) (key : Bytes) (holder : Option Bytes) : Store :=
  { store with contents := store.contents.rebind key holder }

namespace Contents

variable {rule : KeyRule} {contents : Contents} {region : Region} {key sought : Bytes}
  {holder : Option Bytes} {write : Write}

/-- The name has its new holder, and all other keys are bound as they were. -/
theorem get?_rebind :
    (contents.rebind key holder).get? region sought
      = if (region, sought) = (.name, key) then holder else contents.get? region sought := by
  have changed : ∀ change : OrderedMap Bytes Bytes → OrderedMap Bytes Bytes,
      (change contents.names).get? sought
        = (if sought = key then holder else contents.names.get? sought) →
      (contents.update .name change).get? region sought
        = if (region, sought) = (.name, key) then holder else contents.get? region sought := by
    intro change names
    rw [get?_update]
    by_cases within : region = .name
    · subst within
      simp only [if_true, Prod.mk.injEq, true_and]
      exact names
    · simp [within]
  cases holder with
  | none => exact changed _ (OrderedMap.get?_erase_eq _ _ _)
  | some holder => exact changed _ (OrderedMap.get?_insert_eq _ _ _ _)

/-- Other regions are as they were. -/
theorem region_rebind (apart : region ≠ .name) :
    (contents.rebind key holder).region region = contents.region region := by
  refine OrderedMap.ext_get? fun sought => ?_
  exact get?_rebind.trans (if_neg fun same => apart (congrArg Prod.fst same))

/-- A name that is given the holder it has is left as it is. -/
theorem rebind_of_get? (held : contents.get? .name key = holder) :
    contents.rebind key holder = contents := by
  refine ext_get? fun region sought => ?_
  rw [get?_rebind]
  split
  · rename_i same
    rw [Prod.mk.injEq] at same
    rw [same.1, same.2, held]
  · rfl

/-- A write elsewhere may come before or after a name gets its holder. -/
theorem write_rebind (elsewhere : write.place ≠ (.name, key)) :
    (contents.rebind key holder).write write = (contents.write write).rebind key holder := by
  refine ext_get? fun region sought => ?_
  by_cases here : (region, sought) = write.place
  · rw [get?_rebind, if_neg (here ▸ elsewhere)]
    obtain ⟨rfl, rfl⟩ := Prod.ext_iff.1 here
    exact get?_write_place _ _ write
  · rw [get?_write_of_ne here, get?_rebind, get?_rebind, get?_write_of_ne here]

/-- A write elsewhere is done or refused whoever holds the name. -/
theorem apply_rebind (elsewhere : write.place ≠ (.name, key)) :
    (contents.rebind key holder).apply rule write
      = (contents.apply rule write).map (·.rebind key holder) := by
  have moved : (Except.ok ((contents.rebind key holder).write write) : Except StoreError Contents)
      = .ok ((contents.write write).rebind key holder) := congrArg _ (write_rebind elsewhere)
  cases write with
  | put region other value =>
      simp only [apply]
      split
      · exact moved
      · rfl
  | putNew region other value =>
      have seen : (contents.rebind key holder).get? region other = contents.get? region other :=
        get?_rebind.trans (if_neg elsewhere)
      simp only [apply, seen]
      split
      · split
        · rfl
        · exact moved
      · rfl
  | delete region other =>
      simp only [apply]
      split
      · exact moved
      · rfl

/-- A batch that writes elsewhere is committed or refused whoever holds the name. -/
theorem commit_rebind {batch : Batch}
    (elsewhere : ∀ write ∈ batch.writes, write.place ≠ (.name, key)) :
    (contents.rebind key holder).commit rule batch
      = (contents.commit rule batch).map (·.rebind key holder) := by
  obtain ⟨writes⟩ := batch
  simp only [commit] at elsewhere ⊢
  induction writes generalizing contents with
  | nil => rfl
  | cons write rest inductionHypothesis =>
      obtain ⟨here, later⟩ := List.forall_mem_cons.1 elsewhere
      rw [applyAll, applyAll, apply_rebind here]
      cases contents.apply rule write with
      | error error => rfl
      | ok next => exact inductionHypothesis later

end Contents

variable {α β : Type} {circumstances : Circumstances} {key : Bytes} {before : Contents}

/-- From a store, work heeds a name: with another holder of the name, or none, the result is
another one or something else is left, or the holder is not left as it is. -/
def Heeds (work : StateM Store α) (store : Store) (key : Bytes) : Prop :=
  ∃ holder, work.run (store.rebind key holder)
    ≠ ((work.run store).1, (work.run store).2.rebind key holder)

/-- In the circumstances, work that starts from the contents `before` overlooks a name: whoever
holds it, the work ends as it does, and the holder is left. -/
def Overlooks (circumstances : Circumstances) (key : Bytes) (work : StateM Store α)
    (before : Contents) : Prop :=
  ∀ store, circumstances.Hold store → store.contents = before → ∀ holder,
    work.run (store.rebind key holder) = ((work.run store).1, (work.run store).2.rebind key holder)

/-- A name that is overlooked is not heeded. -/
theorem Overlooks.not_heeds {work : StateM Store α} {store : Store}
    (overlooks : Overlooks circumstances key work store.contents)
    (hold : circumstances.Hold store) : ¬ Heeds work store key := by
  rintro ⟨holder, differs⟩
  exact differs (overlooks store hold rfl holder)

/-- A name that is overlooked and that nobody holds is held by nobody afterwards. -/
theorem Overlooks.free {work : StateM Store α} {store : Store}
    (overlooks : Overlooks circumstances key work store.contents) (hold : circumstances.Hold store)
    (free : store.contents.get? .name key = none) :
    (work.run store).2.contents.get? .name key = none := by
  have same : store.rebind key none = store := by
    rw [Store.rebind, Contents.rebind_of_get? free]
  have kept := overlooks store hold rfl none
  rw [same] at kept
  rw [kept]
  exact Contents.get?_rebind.trans (if_pos rfl)

/-- The footprint that leaves a name alone: it is neither looked up nor written, and the name region
is not visited. -/
def Footprint.beside (key : Bytes) : Footprint where
  looks region sought := (region, sought) ≠ (.name, key)
  writes write := write.place ≠ (.name, key)
  visits region := region ≠ .name

namespace Overlooks

/-- Work after work of which an outcome is known. -/
theorem bind {work : StateM Store α} {rest : α → StateM Store β} {middle : α → Contents → Prop}
    (first : Overlooks circumstances key work before)
    (leads : Leads circumstances work before middle)
    (second : ∀ value between, middle value between →
      Overlooks circumstances key (rest value) between) :
    Overlooks circumstances key (work >>= rest) before := by
  intro store hold start holder
  obtain ⟨holds, reached⟩ := leads store hold start
  rw [StateT.run_bind, StateT.run_bind, first store hold start holder]
  exact second _ _ reached _ holds rfl holder

/-- Another key is looked up. -/
theorem look {region : Region} {sought : Bytes} (elsewhere : (region, sought) ≠ (.name, key)) :
    Overlooks circumstances key (Session.look region sought).run before := by
  intro store _ _ holder
  have looked : ∀ store : Store, (Session.look region sought).run.run store
      = (if store.keyRule.admitsLookup sought then .ok (store.contents.get? region sought)
          else .error KeyRule.refusal, store) := by
    intro store
    show (if store.keyRule.admitsLookup sought then _ else _ : Session _).run.run store = _
    split <;> rfl
  have seen : (store.rebind key holder).contents.get? region sought
      = store.contents.get? region sought := Contents.get?_rebind.trans (if_neg elsewhere)
  rw [looked, looked, seen]
  rfl

/-- A batch writes elsewhere. -/
theorem apply {batch : Batch} (elsewhere : ∀ write ∈ batch.writes, write.place ≠ (.name, key)) :
    Overlooks circumstances key (Session.apply batch).run before := by
  intro store _ _ holder
  rw [Session.run_apply, Session.run_apply]
  dsimp only [Store.rebind]
  rw [Contents.commit_rebind elsewhere]
  cases store.contents.commit store.keyRule batch with
  | error error => rfl
  | ok contents => rfl

/-- Another region is visited. -/
theorem scan {region : Region} {visit : OrderedMap Bytes Bytes → Session α}
    {middle : Except StoreError α → Contents → Prop} (apart : region ≠ .name)
    (visited : Overlooks circumstances key (visit (before.region region)).run before)
    (leads : Leads circumstances (visit (before.region region)).run before middle) :
    Overlooks circumstances key (Session.scan region visit).run before := by
  have called : Leads circumstances (Session.call .scan .empty).run before
      fun _ after => after = before := Leads.call (fun _ _ => rfl) rfl
  rw [Session.scan, ExceptT.run_bind]
  -- The hazard is told of the call, not of who holds a name.
  refine bind (fun _ _ _ _ => rfl) called ?_
  rintro (error | _) _ rfl
  · exact fun _ _ _ _ => rfl
  intro store hold start holder
  subst start
  have alone := (leads store hold rfl).1.alone
  show (visit ((store.contents.rebind key holder).region region) >>= fun result => _).run.run
      (store.rebind key holder)
    = (((visit (store.contents.region region) >>= fun result => _).run.run store).1,
      ((visit (store.contents.region region) >>= fun result => _).run.run store).2.rebind key
        holder)
  rw [Contents.region_rebind apart, run_bind, run_bind, visited store hold rfl]
  rcases ended : (visit (store.contents.region region)).run.run store with ⟨error | value, after⟩
  · rfl
  · rw [ended] at alone
    have aloneToo : (after.rebind key holder).hazard.IsAlone := alone
    refine (aloneToo.run_afterVisit region value).trans ?_
    exact (congrArg (fun last => (last.1, last.2.rebind key holder))
      (alone.run_afterVisit region value)).symm

end Overlooks

/-- Work that leaves a name alone overlooks it. -/
theorem Uses.overlooks {work : StateM Store α}
    (uses : Uses circumstances (.beside key) work before) :
    Overlooks circumstances key work before := by
  induction uses with
  | pure => exact fun _ _ _ _ => rfl
  | bind _ leads _ first second => exact first.bind leads second
  | map change _ inductionHypothesis =>
      intro store hold start holder
      rw [StateT.run_map, StateT.run_map, inductionHypothesis store hold start holder]
      rfl
  | emit => exact fun _ _ _ _ => rfl
  | call => exact fun _ _ _ _ => rfl
  | look elsewhere => exact .look elsewhere
  | apply elsewhere => exact .apply elsewhere
  | scan apart _ leads inductionHypothesis => exact .scan apart inductionHypothesis leads

end Depot
