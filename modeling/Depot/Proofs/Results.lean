/-!
# Results that are values or failures

How a result came about that is put together from others.
-/

namespace Depot

variable {α β ε δ : Type}

/-- A result whose failure is told in other terms is a value if it was one. -/
theorem mapError_eq_ok_iff {result : Except ε α} {tell : ε → δ} {value : α} :
    result.mapError tell = .ok value ↔ result = .ok value := by
  cases result with
  | error cause => constructor <;> rintro ⟨⟩
  | ok held => constructor <;> (rintro ⟨⟩; rfl)

/-- A result is an option of the same value. -/
theorem toOption_eq_some_iff {result : Except ε α} {value : α} :
    result.toOption = some value ↔ result = .ok value := by
  cases result <;> simp [Except.toOption]

/-- A result that is computed from another is a value if that was one. -/
theorem map_eq_ok_iff {result : Except ε α} {compute : α → β} {value : β} :
    result.map compute = .ok value ↔ ∃ source, result = .ok source ∧ compute source = value := by
  cases result <;> simp [Except.map]

/-- One result after another is a value if the first is one and so is the second. -/
theorem bind_eq_ok_iff {first : Except ε α} {next : α → Except ε β} {value : β} :
    first >>= next = .ok value ↔ ∃ middle, first = .ok middle ∧ next middle = .ok value := by
  cases first <;> simp [bind, Except.bind]

/-! ## Results of work on a state -/

section

variable {σ : Type} {work : ExceptT ε (StateM σ) α} {rest : α → ExceptT ε (StateM σ) β}
  {start after : σ}

/-- What is done first decides whether the rest is done. -/
theorem run_bind (work : ExceptT ε (StateM σ) α) (rest : α → ExceptT ε (StateM σ) β) (start : σ) :
    (work >>= rest).run.run start = match work.run.run start with
      | (.ok value, between) => (rest value).run.run between
      | (.error failure, between) => (.error failure, between) := by
  rw [ExceptT.run_bind, StateT.run_bind]
  obtain ⟨result, between⟩ := work.run.run start
  cases result <;> rfl

/-- Work after other work succeeds if both do. -/
theorem run_bind_eq_ok_iff {value : β} : (work >>= rest).run.run start = (.ok value, after) ↔
    ∃ middle between, work.run.run start = (.ok middle, between) ∧
      (rest middle).run.run between = (.ok value, after) := by
  rw [run_bind]
  rcases work.run.run start with ⟨failure | middle, between⟩
  · refine iff_of_false (fun same => by cases same) ?_
    rintro ⟨_, _, same, _⟩
    cases same
  · refine ⟨fun done => ⟨middle, between, rfl, done⟩, ?_⟩
    rintro ⟨_, _, same, done⟩
    cases same
    exact done

/-- It fails if the first fails, or the second after it. -/
theorem run_bind_eq_error_iff {failure : ε} :
    (work >>= rest).run.run start = (.error failure, after) ↔
      work.run.run start = (.error failure, after) ∨
        ∃ middle between, work.run.run start = (.ok middle, between) ∧
          (rest middle).run.run between = (.error failure, after) := by
  rw [run_bind]
  rcases work.run.run start with ⟨failure | middle, between⟩
  · refine ⟨fun failed => .inl (by cases failed; rfl), ?_⟩
    rintro (same | ⟨_, _, same, _⟩)
    · cases same
      rfl
    · cases same
  · refine ⟨fun failed => .inr ⟨middle, between, rfl, failed⟩, ?_⟩
    rintro (same | ⟨_, _, same, failed⟩)
    · cases same
    · cases same
      exact failed

end

end Depot
