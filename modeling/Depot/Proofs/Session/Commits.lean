import Depot.Proofs.Session.Agreement

/-!
# How a commit ends

An engine in memory refuses a write for one reason only: its key must be new and has a value
when the write's turn comes. So a commit fails exactly if there is such a write in its batch, the
failure names the first one, and nothing is changed; otherwise all writes are done, one after the
other. Committing one batch after another is committing both as one. That the writes are made in
place, and undone by the log, is not visible from outside.
-/

namespace Depot

namespace Contents

/-- A write may be done: a key that must be new has no value. -/
def Allows (contents : Contents) : Write → Prop
  | .putNew region key _ => contents.get? region key = none
  | .put _ _ _ | .delete _ _ => True

/-- Writes may be done one after the other, each on what the earlier ones leave. -/
def LetsThrough (contents : Contents) : List Write → Prop
  | [] => True
  | write :: rest => contents.Allows write ∧ (contents.write write).LetsThrough rest

/-- A key is the first among writes that must be new and has a value when its turn comes. -/
def TakenFirst (contents : Contents) (writes : List Write) (region : Region) (key : Bytes) : Prop :=
  ∃ front value back, writes = front ++ .putNew region key value :: back ∧
    contents.LetsThrough front ∧ ((front.foldl write contents).get? region key).isSome = true

variable {contents after : Contents} {write : Write} {writes rest : List Write}
  {error : StoreError} {region : Region} {key : Bytes}

/-- A write that may not be done binds a key that must be new and has a value. -/
theorem not_allows_iff : ¬ contents.Allows write ↔
    ∃ region key value, write = .putNew region key value ∧
      (contents.get? region key).isSome = true := by
  cases write with
  | put => simp [Allows]
  | putNew region key value => simp [Allows, Option.isSome_iff_ne_none]
  | delete => simp [Allows]

/-- An engine in memory does a write that may be done. -/
theorem apply_of_allows (allows : contents.Allows write) :
    contents.apply .unrestricted write = .ok (contents.write write) := by
  cases write with
  | put => rfl
  | putNew => exact apply_putNew_eq_ok_iff.2 ⟨rfl, allows, rfl⟩
  | delete => rfl

/-- It refuses a key that must be new and has a value. -/
theorem apply_of_taken {value : Bytes} (taken : (contents.get? region key).isSome = true) :
    contents.apply .unrestricted (.putNew region key value) = .error (.keyTaken region key) :=
  if_pos taken

/-- The first of writes has a taken key, or it may be done and a later one has. -/
theorem takenFirst_cons_iff : contents.TakenFirst (write :: rest) region key ↔
    (∃ value, write = .putNew region key value ∧ (contents.get? region key).isSome = true) ∨
      contents.Allows write ∧ (contents.write write).TakenFirst rest region key := by
  constructor
  · rintro ⟨front, value, back, split, through, taken⟩
    cases front with
    | nil =>
        obtain ⟨rfl, _⟩ := List.cons.inj split
        exact .inl ⟨value, rfl, taken⟩
    | cons first front =>
        obtain ⟨rfl, rfl⟩ := List.cons.inj split
        exact .inr ⟨through.1, front, value, back, rfl, through.2, taken⟩
  · rintro (⟨value, rfl, taken⟩ | ⟨allowed, front, value, back, rfl, through, taken⟩)
    · exact ⟨[], value, rest, rfl, trivial, taken⟩
    · exact ⟨write :: front, value, back, rfl, ⟨allowed, through⟩, taken⟩

/-- Writes go through exactly if none of them finds its key taken. -/
theorem not_letsThrough_iff : ¬ contents.LetsThrough writes ↔
    ∃ front region key value back, writes = front ++ .putNew region key value :: back ∧
      ((front.foldl Contents.write contents).get? region key).isSome = true := by
  induction writes generalizing contents with
  | nil => simp [LetsThrough]
  | cons write rest inductionHypothesis =>
      rw [LetsThrough, not_and_or, not_allows_iff, inductionHypothesis]
      constructor
      · rintro (⟨region, key, value, rfl, taken⟩ | ⟨front, region, key, value, back, rfl, taken⟩)
        · exact ⟨[], region, key, value, rest, rfl, taken⟩
        · exact ⟨write :: front, region, key, value, back, rfl, taken⟩
      · rintro ⟨front, region, key, value, back, split, taken⟩
        cases front with
        | nil =>
            obtain ⟨rfl, _⟩ := List.cons.inj split
            exact .inl ⟨region, key, value, rfl, taken⟩
        | cons first front =>
            obtain ⟨rfl, rfl⟩ := List.cons.inj split
            exact .inr ⟨front, region, key, value, back, rfl, taken⟩

/-- An engine in memory does all writes if they may be done one after the other. -/
theorem applyAll_unrestricted_eq_ok_iff :
    contents.applyAll .unrestricted writes = .ok after ↔
      contents.LetsThrough writes ∧ writes.foldl Contents.write contents = after := by
  induction writes generalizing contents with
  | nil => simp [LetsThrough]
  | cons write rest inductionHypothesis =>
      rw [applyAll_cons_eq_ok_iff, LetsThrough, List.foldl_cons, and_assoc]
      by_cases allows : contents.Allows write
      · simp only [apply_of_allows allows, Except.ok.injEq, exists_eq_left', allows, true_and]
        exact inductionHypothesis
      · obtain ⟨region, key, value, rfl, taken⟩ := not_allows_iff.1 allows
        simp [apply_of_taken taken, allows]

/-- An engine in memory refuses writes for the first key of them that is taken. -/
theorem applyAll_unrestricted_eq_error_iff :
    contents.applyAll .unrestricted writes = .error error ↔
      ∃ region key, error = .keyTaken region key ∧ contents.TakenFirst writes region key := by
  induction writes generalizing contents with
  | nil => simp [TakenFirst]
  | cons write rest inductionHypothesis =>
      simp only [applyAll, takenFirst_cons_iff]
      by_cases allows : contents.Allows write
      · have free : ∀ region key, ¬ ∃ value, write = .putNew region key value ∧
            (contents.get? region key).isSome = true := by
          rintro region key ⟨value, same, taken⟩
          exact not_allows_iff.2 ⟨region, key, value, same, taken⟩ allows
        simp only [apply_of_allows allows, free, allows, false_or, true_and]
        exact inductionHypothesis
      · obtain ⟨region, key, value, rfl, taken⟩ := not_allows_iff.1 allows
        simp only [apply_of_taken taken, allows, false_and, or_false, Except.error.injEq,
          Write.putNew.injEq]
        constructor
        · rintro rfl
          exact ⟨region, key, rfl, value, ⟨rfl, rfl, rfl⟩, taken⟩
        · rintro ⟨_, _, rfl, _, ⟨rfl, rfl, _⟩, _⟩
          rfl

end Contents

namespace Session

/-- A commit to an engine in memory ends as its writes do. -/
theorem run_commit_inMemory (contents : Contents) (events : List Event) (batch : Batch) :
    (commit batch).run.run { contents, events }
      = match contents.commit .unrestricted batch with
        | .ok after => (.ok (), { contents := after, events })
        | .error error => (.error error, { contents, events }) :=
  @run_commit { contents, events } rfl batch

/-- It succeeds if the engine does the writes, which is then all that has happened. -/
theorem run_commit_eq_ok_iff {contents : Contents} {events : List Event} {batch : Batch}
    {after : Store} :
    (commit batch).run.run { contents, events } = (.ok (), after) ↔
      ∃ left, contents.commit .unrestricted batch = .ok left ∧ after = { contents := left, events } := by
  rw [run_commit_inMemory]
  cases contents.commit .unrestricted batch with
  | ok left =>
      constructor
      · exact fun same => ⟨left, rfl, (Prod.mk.inj same).2.symm⟩
      · rintro ⟨_, same, rfl⟩
        rw [Except.ok.inj same]
  | error error =>
      constructor
      · exact fun same => absurd (Prod.mk.inj same).1 (by simp)
      · rintro ⟨_, wrong, _⟩
        exact absurd wrong (by simp)

/-- It fails as the engine refuses the writes. -/
theorem run_commit_eq_error_iff {contents : Contents} {events : List Event} {batch : Batch}
    {error : StoreError} :
    ((commit batch).run.run { contents, events }).1 = .error error ↔
      contents.commit .unrestricted batch = .error error := by
  rw [run_commit_inMemory]
  cases contents.commit .unrestricted batch <;> simp

section InMemory

variable (contents : Contents) (events : List Event) (batch : Batch)

/-- A commit names the first key that is taken. -/
theorem run_commit_names_iff (region : Region) (key : Bytes) :
    ((commit batch).run.run { contents, events }).1 = .error (.keyTaken region key) ↔
      contents.TakenFirst batch.writes region key := by
  rw [run_commit_eq_error_iff, Contents.commit, Contents.applyAll_unrestricted_eq_error_iff]
  constructor
  · rintro ⟨_, _, same, taken⟩
    obtain ⟨rfl, rfl⟩ := StoreError.keyTaken.inj same
    exact taken
  · exact fun taken => ⟨region, key, rfl, taken⟩

/-- A commit does all writes from left to right, or it fails for a taken key and changes
nothing. -/
theorem run_commit_cases :
    (commit batch).run.run { contents, events }
        = (.ok (), { contents := batch.writes.foldl Contents.write contents, events }) ∨
      ∃ region key, (commit batch).run.run { contents, events }
        = (.error (.keyTaken region key), { contents, events }) := by
  rw [run_commit_inMemory]
  cases committed : contents.commit .unrestricted batch with
  | ok left =>
      left
      rw [(Contents.applyAll_unrestricted_eq_ok_iff.1 committed).2]
  | error error =>
      right
      obtain ⟨region, key, rfl, _⟩ := Contents.applyAll_unrestricted_eq_error_iff.1 committed
      exact ⟨region, key, rfl⟩

/-- A commit fails for a taken key exactly if one of the writes finds its key taken. -/
theorem run_commit_fails_iff :
    (∃ region key,
        ((commit batch).run.run { contents, events }).1 = .error (.keyTaken region key)) ↔
      ∃ front region key value back, batch.writes = front ++ .putNew region key value :: back ∧
        ((front.foldl Contents.write contents).get? region key).isSome = true := by
  constructor
  · rintro ⟨region, key, failed⟩
    obtain ⟨front, value, back, split, _, taken⟩ :=
      (run_commit_names_iff contents events batch region key).1 failed
    exact ⟨front, region, key, value, back, split, taken⟩
  · intro found
    rcases run_commit_cases contents events batch with done | ⟨region, key, failed⟩
    · obtain ⟨left, committed, _⟩ := run_commit_eq_ok_iff.1 done
      have through := (Contents.applyAll_unrestricted_eq_ok_iff.1 committed).1
      exact absurd through (Contents.not_letsThrough_iff.2 found)
    · exact ⟨region, key, by rw [failed]⟩

/-- A batch and its extension are committed as one exactly if they are committed one after the
other. -/
theorem run_commit_extend_iff (other : Batch) (after : Store) :
    (commit (batch.extend other)).run.run { contents, events } = (.ok (), after) ↔
      ∃ between, (commit batch).run.run { contents, events } = (.ok (), between) ∧
        (commit other).run.run { contents := between.contents, events } = (.ok (), after) := by
  simp only [run_commit_eq_ok_iff, Contents.commit_extend_eq_ok_iff]
  constructor
  · rintro ⟨left, ⟨middle, first, second⟩, rfl⟩
    exact ⟨_, ⟨middle, first, rfl⟩, left, second, rfl⟩
  · rintro ⟨_, ⟨middle, first, rfl⟩, left, second, rfl⟩
    exact ⟨left, ⟨middle, first, second⟩, rfl⟩

end InMemory

/-- However the keys in a batch overlap, a commit to an engine in memory fails exactly if one of
the writes finds its key taken that must be new, all earlier writes having been done; it names
the first such key, and everything is as before. Otherwise all writes are done from left to
right. So a batch that is made of two is committed exactly if they are committed one after the
other, and the same is left. -/
theorem commit_all_or_nothing (contents : Contents) (events : List Event) (batch : Batch) :
    let run := fun (contents : Contents) (batch : Batch) =>
      (commit batch).run.run { contents, events }
    ((∃ region key, (run contents batch).1 = .error (.keyTaken region key)) ↔
      ∃ front region key value back, batch.writes = front ++ .putNew region key value :: back ∧
        ((front.foldl Contents.write contents).get? region key).isSome = true) ∧
    (∀ region key, (run contents batch).1 = .error (.keyTaken region key) ↔
      contents.TakenFirst batch.writes region key) ∧
    (run contents batch
        = (.ok (), { contents := batch.writes.foldl Contents.write contents, events }) ∨
      ∃ region key, run contents batch = (.error (.keyTaken region key), { contents, events })) ∧
    ∀ (other : Batch) (after : Store), run contents (batch.extend other) = (.ok (), after) ↔
      ∃ between, run contents batch = (.ok (), between) ∧
        run between.contents other = (.ok (), after) := by
  intro run
  exact ⟨run_commit_fails_iff contents events batch, run_commit_names_iff contents events batch,
    run_commit_cases contents events batch, run_commit_extend_iff contents events batch⟩

end Session

end Depot
