import Depot.Proofs.Session

/-!
# Work that does the same

Two pieces of work agree if, from the contents at hand, they end with the same result and
leave the same store, events included. Agreement is put together rule by rule, like what
work leads to; where two pieces differ, their runs are computed, which is possible where no
call is refused.
-/

namespace Depot

namespace Session

variable {store : Store}

/-- Without a hazard a call does nothing. -/
theorem run_call (calm : store.hazard = .none) (kind : Call) (batch : Batch) :
    (call kind batch).run.run store = (.ok (), store) := by
  obtain ⟨contents, keyRule, hazard, events⟩ := store
  obtain rfl : hazard = .none := calm
  rfl

/-- Without a hazard a batch is committed as the contents and the engine's rule allow. -/
theorem run_commit (calm : store.hazard = .none) (batch : Batch) :
    (commit batch).run.run store
      = match store.contents.commit store.keyRule batch with
        | .ok contents => (.ok (), { store with contents })
        | .error error => (.error error, store) := by
  rw [commit, run_bind, run_call calm]
  exact run_apply batch store

/-- Without a hazard the value of a key that may be looked up is copied out. -/
theorem run_value? (calm : store.hazard = .none) (region : Region) {key : Bytes}
    (present : key ≠ []) :
    (value? region key).run.run store = (.ok (store.contents.get? region key), store) := by
  rw [value?, run_bind, run_call calm]
  exact run_look present store

/-- Without a hazard a key that may be looked up is seen to have a value or not. -/
theorem run_holds (calm : store.hazard = .none) (region : Region) {key : Bytes}
    (present : key ≠ []) :
    (holds region key).run.run store = (.ok (store.contents.get? region key).isSome, store) := by
  rw [holds, run_bind, run_value? calm region present]
  rfl

end Session

variable {α β : Type} {circumstances : Circumstances} {before : Contents}

/-- A calm engine in memory is known by its contents and the events so far. -/
theorem Circumstances.Hold.inMemory {store : Store} (hold : (reliable .unrestricted).Hold store)
    (start : store.contents = before) : ∃ events, store = { contents := before, events } := by
  obtain ⟨contents, keyRule, hazard, events⟩ := store
  obtain rfl : contents = before := start
  obtain rfl : keyRule = .unrestricted := hold.keyRule
  obtain rfl : hazard = .none := hold.calm id
  exact ⟨events, rfl⟩

/-- In the circumstances, two pieces of work that start from the contents `before` end with
the same result and leave the same store. -/
def Agrees (circumstances : Circumstances) (work other : StateM Store α) (before : Contents) :
    Prop :=
  ∀ store, circumstances.Hold store → store.contents = before → work.run store = other.run store

namespace Agrees

theorem refl (work : StateM Store α) : Agrees circumstances work work before :=
  fun _ _ _ => rfl

/-- Work after work of which an outcome is known. -/
theorem bind {work other : StateM Store α} {rest otherRest : α → StateM Store β}
    {middle : α → Contents → Prop} (first : Agrees circumstances work other before)
    (leads : Leads circumstances work before middle)
    (second : ∀ value between, middle value between →
      Agrees circumstances (rest value) (otherRest value) between) :
    Agrees circumstances (work >>= rest) (other >>= otherRest) before := by
  intro store hold start
  obtain ⟨holds, reached⟩ := leads store hold start
  rw [StateT.run_bind, StateT.run_bind, ← first store hold start]
  exact second _ _ reached _ holds rfl

/-- Results are changed in the same way. -/
theorem map (change : α → β) {work other : StateM Store α}
    (agrees : Agrees circumstances work other before) :
    Agrees circumstances (change <$> work) (change <$> other) before := by
  intro store hold start
  rw [StateT.run_map, StateT.run_map, agrees store hold start]

/-- A session after a session of which an outcome is known. -/
theorem follow {session other : Session α} {rest otherRest : α → Session β}
    {middle : Except StoreError α → Contents → Prop}
    (first : Agrees circumstances session.run other.run before)
    (leads : Leads circumstances session.run before middle)
    (second : ∀ value between, middle (.ok value) between →
      Agrees circumstances (rest value).run (otherRest value).run between) :
    Agrees circumstances (session >>= rest).run (other >>= otherRest).run before := by
  rw [ExceptT.run_bind, ExceptT.run_bind]
  refine bind first leads fun result between reached => ?_
  cases result with
  | error error => exact refl _
  | ok value => exact second value between reached

/-- A session after a session whose failure is looked at. -/
theorem attempt {session other : Session α} {rest otherRest : Except StoreError α → Session β}
    {middle : Except StoreError α → Contents → Prop}
    (first : Agrees circumstances session.run other.run before)
    (leads : Leads circumstances session.run before middle)
    (second : ∀ result between, middle result between →
      Agrees circumstances (rest result).run (otherRest result).run between) :
    Agrees circumstances (Session.attempt session >>= rest).run
      (Session.attempt other >>= otherRest).run before :=
  bind first leads second

end Agrees

end Depot
