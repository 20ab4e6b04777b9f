import Depot.Proofs.Session

/-!
# The calls that work makes

`Leads` leaves open which call of a session is refused. Here work is followed together
with the calls it makes: the first call that the hazard refuses decides how the work
ends. `Makes` follows only work that changes the contents with its last call, if at all,
since then a refusal always finds the contents as they were. `Meets` follows any work, and
leaves open what a refusal finds.
-/

namespace Depot

namespace Hazard

/-- Meets calls one after the other, up to the first that is refused. -/
def meetAll (hazard : Hazard) : List (Call × Batch) → Except StoreError Unit × Hazard
  | [] => (.ok (), hazard)
  | (kind, batch) :: rest =>
    match hazard.meet kind batch with
    | (.error error, after) => (.error error, after)
    | (.ok (), after) => after.meetAll rest

/-- Calls are met after the calls before them, if none of those is refused. -/
theorem meetAll_append (hazard : Hazard) (first second : List (Call × Batch)) :
    hazard.meetAll (first ++ second)
      = match hazard.meetAll first with
        | (.error error, after) => (.error error, after)
        | (.ok (), after) => after.meetAll second := by
  induction first generalizing hazard with
  | nil => rfl
  | cons call rest inductionHypothesis =>
      obtain ⟨kind, batch⟩ := call
      simp only [List.cons_append, meetAll]
      rcases hazard.meet kind batch with ⟨error | _, after⟩
      · rfl
      · exact inductionHypothesis after

theorem meetAll_singleton (hazard : Hazard) (kind : Call) (batch : Batch) :
    hazard.meetAll [(kind, batch)] = hazard.meet kind batch := by
  simp only [meetAll]
  rcases hazard.meet kind batch with ⟨error | _, after⟩
  · rfl
  · rfl

/-- Nobody else comes to write while calls are met. -/
theorem IsAlone.meetAll {hazard : Hazard} (alone : hazard.IsAlone) (calls : List (Call × Batch)) :
    (hazard.meetAll calls).2.IsAlone := by
  induction calls generalizing hazard with
  | nil => exact alone
  | cons call rest inductionHypothesis =>
      obtain ⟨kind, batch⟩ := call
      have next := (alone.meet kind batch).1
      rw [Hazard.meetAll]
      split
      · rename_i met
        rwa [met] at next
      · rename_i met
        rw [met] at next
        exact inductionHypothesis next

/-- Calls are refused by the engine only. -/
theorem IsAlone.meetAll_cases {hazard : Hazard} (alone : hazard.IsAlone)
    (calls : List (Call × Batch)) :
    (hazard.meetAll calls).1 = .ok () ∨
      ∃ reason, (hazard.meetAll calls).1 = .error (.engine reason) := by
  induction calls generalizing hazard with
  | nil => exact .inl rfl
  | cons call rest inductionHypothesis =>
      obtain ⟨kind, batch⟩ := call
      obtain ⟨next, verdict⟩ := alone.meet kind batch
      rw [Hazard.meetAll]
      rcases met : hazard.meet kind batch with ⟨error | _, after⟩
      · rw [met] at verdict
        exact .inr (verdict.resolve_left (by simp))
      · rw [met] at next
        exact inductionHypothesis next

/-- Without a hazard every call is let through. -/
@[simp] theorem meetAll_none (calls : List (Call × Batch)) :
    Hazard.none.meetAll calls = (.ok (), .none) := by
  induction calls with
  | nil => rfl
  | cons call rest inductionHypothesis => exact inductionHypothesis

end Hazard

variable {α β : Type} {rule : KeyRule} {before middle after : Contents}
  {calls : List (Call × Batch)}

/-- From the contents `before`, work makes these calls and ends with the result and the
contents `after`. A refused call is the failure of the work and leaves the contents as they
were. -/
def Makes (rule : KeyRule) (work : Session α) (before : Contents) (calls : List (Call × Batch))
    (result : Except StoreError α) (after : Contents) : Prop :=
  ∀ store : Store, store.hazard.IsAlone → store.keyRule = rule → store.contents = before →
    ∃ events, work.run.run store = match store.hazard.meetAll calls with
      | (.error error, hazard) => (.error error, { store with hazard, events })
      | (.ok (), hazard) => (result, { store with hazard, events, contents := after })

namespace Makes

theorem give (value : α) : Makes rule (pure value) before [] (.ok value) before := by
  rintro store _ _ rfl
  exact ⟨store.events, rfl⟩

theorem emitIf (wanted : Bool) (event : Event) :
    Makes rule (Session.emitIf wanted event) before [] (.ok ()) before := by
  rintro store _ _ rfl
  cases wanted with
  | false => exact ⟨store.events, rfl⟩
  | true => exact ⟨store.events ++ [event], rfl⟩

/-- Work after work that has changed nothing, or after which no calls are made. -/
theorem andThen {work : Session α} {rest : α → Session β} {later : List (Call × Batch)} {value : α}
    {result : Except StoreError β} (first : Makes rule work before calls (.ok value) middle)
    (second : Makes rule (rest value) middle later result after)
    (whole : middle = before ∨ later = []) :
    Makes rule (work >>= rest) before (calls ++ later) result after := by
  intro store alone ruled start
  obtain ⟨events, run⟩ := first store alone ruled start
  have aloneNext := alone.meetAll calls
  rw [run_bind, run, Hazard.meetAll_append]
  rcases met : store.hazard.meetAll calls with ⟨error | _, hazard⟩
  · exact ⟨events, rfl⟩
  · rw [met] at aloneNext
    obtain ⟨eventsAfter, runAfter⟩ :=
      second { store with hazard, events, contents := middle } aloneNext ruled rfl
    refine ⟨eventsAfter, runAfter.trans ?_⟩
    rcases whole with rfl | rfl
    · subst start
      rfl
    · rfl

/-- Nothing is done after a failure. -/
theorem failing {work : Session α} {rest : α → Session β} {error : StoreError}
    (first : Makes rule work before calls (.error error) after) :
    Makes rule (work >>= rest) before calls (.error error) after := by
  intro store alone ruled start
  obtain ⟨events, run⟩ := first store alone ruled start
  rw [run_bind, run]
  rcases store.hazard.meetAll calls with ⟨error | _, hazard⟩ <;> exact ⟨events, rfl⟩

/-- A call is all that is done. -/
theorem call (kind : Call) (batch : Batch) :
    Makes rule (Session.call kind batch) before [(kind, batch)] (.ok ()) before := by
  rintro store _ _ rfl
  refine ⟨store.events, ?_⟩
  show ((store.hazard.meet kind batch).1,
    { store with hazard := (store.hazard.meet kind batch).2 }) = _
  rw [Hazard.meetAll_singleton]
  rcases store.hazard.meet kind batch with ⟨error | _, hazard⟩ <;> rfl

/-- A batch is applied without a call. -/
theorem apply {batch : Batch} {result : Except StoreError Unit}
    (applied : match before.commit rule batch with
      | .ok contents => result = .ok () ∧ after = contents
      | .error error => result = .error error ∧ after = before) :
    Makes rule (Session.apply batch) before [] result after := by
  rintro store _ rfl rfl
  refine ⟨store.events, ?_⟩
  rw [Session.run_apply]
  cases committed : store.contents.commit store.keyRule batch with
  | ok contents =>
      rw [committed] at applied
      obtain ⟨rfl, rfl⟩ := applied
      rfl
  | error error =>
      rw [committed] at applied
      obtain ⟨rfl, rfl⟩ := applied
      rfl

/-- A batch is committed with one call. -/
theorem commit {batch : Batch} {result : Except StoreError Unit}
    (committed : match before.commit rule batch with
      | .ok contents => result = .ok () ∧ after = contents
      | .error error => result = .error error ∧ after = before) :
    Makes rule (Session.commit batch) before [(.commit, batch)] result after :=
  andThen (call .commit batch) (apply committed) (.inl rfl)

/-- A key is looked up without a call. -/
theorem look (region : Region) {key : Bytes} (present : key ≠ []) :
    Makes rule (Session.look region key) before [] (.ok (before.get? region key)) before := by
  rintro store _ _ rfl
  exact ⟨store.events, Session.run_look present store⟩

/-- The value of a key is copied out with one call. -/
theorem value? (region : Region) {key : Bytes} (present : key ≠ []) :
    Makes rule (Session.value? region key) before [(.get, .empty)]
      (.ok (before.get? region key)) before :=
  andThen (call .get .empty) (look region present) (.inl rfl)

/-- A region is visited with one call. -/
theorem scan {region : Region} {visit : OrderedMap Bytes Bytes → Session α} {value : α}
    (visited : Makes rule (visit (before.region region)) before [] (.ok value) before) :
    Makes rule (Session.scan region visit) before [(.scan, .empty)] (.ok value) before := by
  rw [← List.append_nil [(Call.scan, Batch.empty)]]
  refine andThen (call .scan .empty) ?_ (.inl rfl)
  rintro store alone ruled rfl
  obtain ⟨events, run⟩ := visited store alone ruled rfl
  refine ⟨events, ?_⟩
  show (visit (store.contents.region region) >>= fun result => _).run.run store = _
  rw [run_bind, run]
  exact @Hazard.IsAlone.run_afterVisit α { store with events } alone region value

end Makes

/-- From the contents `before`, work makes these calls up to the first that is refused, and that
refusal is its failure, whatever was done before. If none is refused, it ends with the result and
the contents `after`. -/
def Meets (rule : KeyRule) (work : Session α) (before : Contents) (calls : List (Call × Batch))
    (result : Except StoreError α) (after : Contents) : Prop :=
  ∀ store : Store, store.hazard.IsAlone → store.keyRule = rule → store.contents = before →
    match store.hazard.meetAll calls with
    | (.error error, _) => (work.run.run store).1 = .error error
    | (.ok (), hazard) =>
      ∃ events, work.run.run store = (result, { store with hazard, events, contents := after })

/-- Work that is followed with what a refusal finds is followed without it. -/
theorem Makes.meets {work : Session α} {result : Except StoreError α}
    (makes : Makes rule work before calls result after) :
    Meets rule work before calls result after := by
  intro store alone ruled start
  obtain ⟨events, run⟩ := makes store alone ruled start
  rw [run]
  rcases store.hazard.meetAll calls with ⟨error | _, hazard⟩
  · rfl
  · exact ⟨events, rfl⟩

namespace Meets

/-- Work after work. -/
theorem andThen {work : Session α} {rest : α → Session β} {later : List (Call × Batch)} {value : α}
    {result : Except StoreError β} (first : Meets rule work before calls (.ok value) middle)
    (second : Meets rule (rest value) middle later result after) :
    Meets rule (work >>= rest) before (calls ++ later) result after := by
  intro store alone ruled start
  have here := first store alone ruled start
  have aloneNext := alone.meetAll calls
  rw [run_bind, Hazard.meetAll_append]
  rcases met : store.hazard.meetAll calls with ⟨error | _, hazard⟩
  · rw [met] at here
    rcases ran : work.run.run store with ⟨result, next⟩
    rw [ran] at here
    obtain rfl : result = .error error := here
    rfl
  · rw [met] at here aloneNext
    obtain ⟨events, run⟩ := here
    rw [run]
    exact second { store with hazard, events, contents := middle } aloneNext ruled rfl

/-- Work whose calls are all let through ends with the result, and otherwise with the first
refusal. -/
theorem run_eq {work : Session Unit} (meets : Meets rule work before calls (.ok ()) after)
    {store : Store} (alone : store.hazard.IsAlone) (ruled : store.keyRule = rule)
    (start : store.contents = before) :
    (work.run.run store).1 = (store.hazard.meetAll calls).1 ∧
      ((work.run.run store).1 = .ok () → (work.run.run store).2.contents = after) := by
  have here := meets store alone ruled start
  rcases met : store.hazard.meetAll calls with ⟨error | _, hazard⟩
  · rw [met] at here
    exact ⟨here, fun done => absurd (here.symm.trans done) (by simp)⟩
  · rw [met] at here
    obtain ⟨events, run⟩ := here
    rw [run]
    exact ⟨rfl, fun _ => rfl⟩

end Meets

end Depot
