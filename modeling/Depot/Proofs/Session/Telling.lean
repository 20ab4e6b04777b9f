import Depot.Proofs.Session

/-!
# What sessions tell

The events that work reports on the way, for work that comes to its end while nobody else
writes. A refused call ends the work before the events that would have followed, so nothing
is said of failures. Like what sessions lead to, this is put together rule by rule.
-/

namespace Depot

variable {α β : Type} {before middle after : Contents} {events later : List Event} {value : α}

/-- Wherever the work, from the contents `before`, comes to its end, it gives the value, leaves
the contents `after` and has reported the events, in this order. -/
def Tells (work : Session α) (before : Contents) (events : List Event) (value : α)
    (after : Contents) : Prop :=
  ∀ (store left : Store) result, store.hazard.IsAlone → store.contents = before →
    work.run.run store = (.ok result, left) →
      result = value ∧ left.contents = after ∧ left.events = store.events ++ events ∧
        left.hazard.IsAlone

namespace Tells

theorem give (value : α) : Tells (Pure.pure value) before [] value before := by
  rintro store _ _ alone rfl ⟨⟩
  exact ⟨rfl, rfl, (List.append_nil _).symm, alone⟩

theorem emit (event : Event) : Tells (Session.emit event) before [event] () before := by
  rintro store _ _ alone rfl ⟨⟩
  exact ⟨rfl, rfl, rfl, alone⟩

theorem emitIf (wanted : Bool) (event : Event) :
    Tells (Session.emitIf wanted event) before (if wanted then [event] else []) () before := by
  cases wanted with
  | false => exact give ()
  | true => exact emit event

/-- Work after work: the events of the one come before those of the other. -/
theorem andThen {work : Session α} {rest : α → Session β} {other : β}
    (first : Tells work before events value middle)
    (second : Tells (rest value) middle later other after) :
    Tells (work >>= rest) before (events ++ later) other after := by
  intro store left result alone start run
  obtain ⟨found, between, done, runs⟩ := run_bind_eq_ok_iff.1 run
  obtain ⟨rfl, held, told, aloneNext⟩ := first store between found alone start done
  obtain ⟨same, kept, toldLater, aloneLast⟩ := second between left result aloneNext held runs
  exact ⟨same, kept, by rw [toldLater, told, List.append_assoc], aloneLast⟩

/-- A call that is let through leaves everything as it is but the hazard. -/
theorem call (kind : Call) (batch : Batch) :
    Tells (Session.call kind batch) before [] () before := by
  rintro store left result alone rfl run
  obtain ⟨aloneNext, _⟩ := alone.meet kind batch
  have same : { store with hazard := (store.hazard.meet kind batch).2 } = left :=
    congrArg Prod.snd run
  subst same
  exact ⟨rfl, rfl, (List.append_nil _).symm, aloneNext⟩

/-- What a commit leaves is known where every commit of the batch leaves the same. -/
theorem commit {batch : Batch}
    (leaves : ∀ rule left, before.commit rule batch = .ok left → left = after) :
    Tells (Session.commit batch) before [] () after := by
  rw [← List.append_nil ([] : List Event)]
  refine andThen (call .commit batch) ?_
  rintro store left result alone rfl run
  rw [Session.run_apply] at run
  cases committed : store.contents.commit store.keyRule batch with
  | error error =>
      rw [committed] at run
      exact absurd (congrArg Prod.fst run) (by simp)
  | ok contents =>
      rw [committed] at run
      obtain ⟨_, rfl⟩ := Prod.mk.inj run
      exact ⟨rfl, leaves _ _ committed, (List.append_nil _).symm, alone⟩

/-- A scan tells what its visit tells. -/
theorem scan {region : Region} {visit : OrderedMap Bytes Bytes → Session α}
    (visited : Tells (visit (before.region region)) before events value after) :
    Tells (Session.scan region visit) before events value after := by
  rw [← List.nil_append events]
  refine andThen (call .scan .empty) ?_
  rintro store left result alone rfl run
  have parts : (visit (store.contents.region region) >>= fun result => _).run.run store
    = (Except.ok result, left) := run
  obtain ⟨found, between, done, ends⟩ := run_bind_eq_ok_iff.1 parts
  have reached := visited store between found alone rfl done
  obtain ⟨same, rfl⟩ := Prod.mk.inj ((reached.2.2.2.run_afterVisit region found).symm.trans ends)
  obtain rfl := Except.ok.inj same
  exact reached

end Tells

end Depot
