import Depot.Sink

/-!
# How sinks take bytes

A sink is free to take what it is offered in portions of any size, and to fail or to take nothing
at any point. Whatever it does, it has taken a front of the bytes, and the pouring ends well just
if that is all of them.
-/

namespace Depot

namespace Sink

variable {sink : Sink} {received : Nat} {pending : Bytes} {portions : List Bytes}
  {stop : Option String}

/-- How bytes are poured into a sink that has received so many before. It is offered all that is
left and takes a portion of it, again and again, until nothing is left or it is given up for a
reason. -/
inductive Pours (sink : Sink) : Nat → Bytes → List Bytes → Option String → Prop where
  | done {received : Nat} : Pours sink received [] [] none
  | fails {received : Nat} {pending : Bytes} {reason : String} (waiting : pending ≠ [])
      (answer : sink.answer received pending = .error reason) :
      Pours sink received pending [] (some reason)
  | stalls {received : Nat} {pending : Bytes} (waiting : pending ≠ [])
      (answer : sink.answer received pending = .ok 0) :
      Pours sink received pending [] (some stalled)
  | takes {received taken : Nat} {pending : Bytes} {portions : List Bytes} {stop : Option String}
      (waiting : pending ≠ []) (answer : sink.answer received pending = .ok taken)
      (some : 0 < taken)
      (later : Pours sink (received + (pending.take taken).length) (pending.drop taken) portions
        stop) :
      Pours sink received pending (pending.take taken :: portions) stop

/-- How a pouring ends that stops for a reason or for none. -/
def ending : Option String → Except String Unit
  | none => .ok ()
  | some reason => .error reason

/-- Pouring gives what the sink took of the bytes, and why it stopped. -/
theorem exists_pours (sink : Sink) (received : Nat) (pending : Bytes) :
    ∃ portions stop, sink.Pours received pending portions stop ∧
      sink.pour received pending = (ending stop, portions.flatten) := by
  fun_induction pour sink received pending with
  | case1 received => exact ⟨[], none, .done, rfl⟩
  | case2 received first rest reason answer =>
      exact ⟨[], some reason, .fails (List.cons_ne_nil _ _) answer, rfl⟩
  | case3 received first rest answer =>
      exact ⟨[], some stalled, .stalls (List.cons_ne_nil _ _) answer, rfl⟩
  | case4 received first rest taken answer portion outcome later poured inductionHypothesis =>
      obtain ⟨portions, stop, pours, same⟩ := inductionHypothesis
      obtain ⟨rfl, rfl⟩ := Prod.mk.inj (poured.symm.trans same)
      exact ⟨portion :: portions, stop,
        .takes (List.cons_ne_nil _ _) answer (Nat.succ_pos taken) pours, rfl⟩

/-- What was taken is the front of the bytes, and all of them if the pouring did not stop
before. -/
theorem Pours.exists_left (pours : sink.Pours received pending portions stop) :
    ∃ left, portions.flatten ++ left = pending ∧ (left = [] ↔ stop = none) := by
  induction pours with
  | done => exact ⟨[], rfl, by simp⟩
  | fails waiting | stalls waiting => exact ⟨_, rfl, by simpa using waiting⟩
  | @takes _ taken pending _ _ _ _ _ _ inductionHypothesis =>
      obtain ⟨left, split, ended⟩ := inductionHypothesis
      refine ⟨left, ?_, ended⟩
      rw [List.flatten_cons, List.append_assoc, split, List.take_append_drop]

theorem Pours.isPrefix (pours : sink.Pours received pending portions stop) :
    portions.flatten <+: pending := by
  obtain ⟨left, split, _⟩ := pours.exists_left
  exact ⟨left, split⟩

/-- The pouring does not stop before everything was taken, exactly if everything was taken. -/
theorem Pours.stop_eq_none_iff (pours : sink.Pours received pending portions stop) :
    stop = none ↔ portions.flatten = pending := by
  obtain ⟨left, split, ended⟩ := pours.exists_left
  rw [← ended]
  constructor
  · rintro rfl
    rwa [List.append_nil] at split
  · intro whole
    rw [whole] at split
    exact List.self_eq_append_right.1 split.symm

/-- A sink takes something whenever it is offered something, and can be flushed. -/
structure TakesAll (sink : Sink) : Prop where
  takes : ∀ received offered, offered ≠ [] → ∃ taken, sink.answer received offered = .ok (taken + 1)
  flushes : sink.flush = .ok ()

theorem Pours.stop_of_takesAll (all : sink.TakesAll)
    (pours : sink.Pours received pending portions stop) : stop = none := by
  induction pours with
  | done => rfl
  | fails waiting answer | stalls waiting answer =>
      obtain ⟨taken, other⟩ := all.takes _ _ waiting
      exact absurd (answer.symm.trans other) (by simp)
  | takes _ _ _ _ inductionHypothesis => exact inductionHypothesis

theorem takesAll_all : all.TakesAll where
  takes _ offered waiting := by
    obtain ⟨size, same⟩ := Nat.exists_eq_succ_of_ne_zero
      (mt List.eq_nil_of_length_eq_zero waiting)
    exact ⟨size, congrArg Except.ok same⟩
  flushes := rfl

end Sink

end Depot
