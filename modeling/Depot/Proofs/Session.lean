import Depot.Proofs.Batch
import Depot.Proofs.Results
import Depot.Session

/-!
# What sessions lead to

Work on a store is followed through what the regions hold. `Leads` says of work
that, whichever calls are refused on the way, its result and the contents it leaves
satisfy an outcome; every primitive of sessions has one rule, and larger work is
followed rule by rule. Events are not followed, and other writers are left out: the
circumstances say that nobody else's batch is pending.
-/

namespace Depot

/-- No other writer's batch is waiting for a scan. -/
def Hazard.IsAlone : Hazard → Prop
  | .racing (some _) => False
  | _ => True

/-- A call that meets a hazard of one writer is let through or told to be refused, and
the hazard stays one of one writer. -/
theorem Hazard.IsAlone.meet {hazard : Hazard} (alone : hazard.IsAlone) (kind : Call)
    (batch : Batch) :
    (hazard.meet kind batch).2.IsAlone ∧
      ((hazard.meet kind batch).1 = .ok () ∨
        ∃ reason, (hazard.meet kind batch).1 = .error (.engine reason)) := by
  cases hazard with
  | none => exact ⟨trivial, .inl rfl⟩
  | faultyCommit region countdown =>
      simp only [Hazard.meet]
      split
      · split
        · exact ⟨trivial, .inl rfl⟩
        · exact ⟨trivial, .inr ⟨_, rfl⟩⟩
        · exact ⟨trivial, .inl rfl⟩
      · exact ⟨trivial, .inl rfl⟩
  | gated countdowns =>
      refine ⟨trivial, ?_⟩
      simp only [Hazard.meet]
      split
      · exact .inl rfl
      · exact .inr ⟨_, rfl⟩
  | racing pending =>
      cases pending with
      | none => exact ⟨trivial, .inl rfl⟩
      | some batch => exact alone.elim
  | scripted refusals =>
      cases refusals with
      | nil => exact ⟨trivial, .inl rfl⟩
      | cons refused rest =>
          cases refused with
          | false => exact ⟨trivial, .inl rfl⟩
          | true => exact ⟨trivial, .inr ⟨_, rfl⟩⟩

/-- After a scan no batch of another writer follows. -/
theorem Hazard.IsAlone.afterScan {hazard : Hazard} (alone : hazard.IsAlone) (region : Region) :
    hazard.afterScan region = (.empty, hazard) := by
  cases hazard with
  | racing pending =>
      cases pending with
      | none => rfl
      | some batch => exact alone.elim
  | _ => rfl

/-- A look at a key that may be looked up shows what the contents have. -/
theorem Session.run_look {region : Region} {key : Bytes} (present : key ≠ []) (store : Store) :
    (Session.look region key).run.run store = (.ok (store.contents.get? region key), store) := by
  show (if store.keyRule.admitsLookup key then _ else _ : Session (Option Bytes)).run.run store = _
  rw [if_pos (store.keyRule.admitsLookup_of_ne_nil present)]
  rfl

/-- A batch is applied as it is committed to the contents. -/
theorem Session.run_apply (batch : Batch) (store : Store) :
    (Session.apply batch).run.run store
      = match store.contents.commit store.keyRule batch with
        | .ok contents => (.ok (), { store with contents })
        | .error error => (.error error, store) := by
  show ((store.contents.transact store.keyRule batch).1,
    { store with contents := (store.contents.transact store.keyRule batch).2 }) = _
  rw [Contents.transact_eq]
  cases store.contents.commit store.keyRule batch <;> rfl

/-- With nobody else writing, nothing happens after the visit of a scan. -/
theorem Hazard.IsAlone.run_afterVisit {α : Type} {store : Store} (alone : store.hazard.IsAlone)
    (region : Region) (result : α) :
    (do let (batch, hazard) := (← get).hazard.afterScan region
        modify fun store => { store with hazard }
        Session.apply batch
        return result : Session α).run.run store = (.ok result, store) := by
  show (do modify fun store => { store with hazard := (store.hazard.afterScan region).2 }
           Session.apply (store.hazard.afterScan region).1
           return result : Session α).run.run store = _
  rw [alone.afterScan region]
  show (Except.ok result, { store with hazard := (store.hazard.afterScan region).2 }) = _
  rw [alone.afterScan region]

/-- The circumstances of work on a store. -/
structure Circumstances where
  keyRule : KeyRule
  mayRefuse : Prop

namespace Circumstances

/-- A store is met in these circumstances. -/
structure Hold (circumstances : Circumstances) (store : Store) : Prop where
  keyRule : store.keyRule = circumstances.keyRule
  alone : store.hazard.IsAlone
  calm : ¬ circumstances.mayRefuse → store.hazard = .none

/-- Calls may be refused in any pattern. -/
def unreliable (keyRule : KeyRule) : Circumstances := ⟨keyRule, True⟩

/-- No call is refused. -/
def reliable (keyRule : KeyRule) : Circumstances := ⟨keyRule, False⟩

/-- Changed contents and events do not change the circumstances. -/
theorem Hold.replace {circumstances : Circumstances} {store : Store}
    (hold : circumstances.Hold store) (contents : Contents) (events : List Event) :
    circumstances.Hold { store with contents, events } :=
  ⟨hold.keyRule, hold.alone, hold.calm⟩

/-- A store that nobody else writes to is unreliable at worst. -/
theorem hold_unreliable {store : Store} (alone : store.hazard.IsAlone) :
    (unreliable store.keyRule).Hold store :=
  ⟨rfl, alone, fun never => absurd trivial never⟩

/-- A store whose engine refuses no call is reliable. -/
theorem hold_of_calm {store : Store} (calm : store.hazard = .none) :
    (reliable store.keyRule).Hold store := by
  refine ⟨rfl, ?_, fun _ => calm⟩
  rw [calm]
  trivial

/-- A store without a hazard is reliable. -/
theorem hold_reliable (store : Store) :
    (reliable store.keyRule).Hold { store with hazard := .none } :=
  @hold_of_calm { store with hazard := .none } rfl

end Circumstances

variable {α β : Type} {circumstances : Circumstances} {before : Contents}

/-- In the circumstances, work that starts from the contents `before` ends with the
outcome. -/
def Leads (circumstances : Circumstances) (work : StateM Store α) (before : Contents)
    (outcome : α → Contents → Prop) : Prop :=
  ∀ store, circumstances.Hold store → store.contents = before →
    circumstances.Hold (work.run store).2 ∧
      outcome (work.run store).1 (work.run store).2.contents

namespace Leads

/-- What is known of work holds of its run on a store that nobody else writes to. -/
theorem outcome_of_run {store : Store} {work : StateM Store α} {value : α}
    {outcome : α → Contents → Prop} (alone : store.hazard.IsAlone)
    (leads : Leads (.unreliable store.keyRule) work store.contents outcome)
    (done : (work.run store).1 = value) : outcome value (work.run store).2.contents := by
  subst done
  exact (leads store (Circumstances.hold_unreliable alone) rfl).2

/-- What is known of reliable work holds of its run where no call is refused, and it leaves the
store reliable. -/
theorem outcome_of_calm {store : Store} {work : StateM Store α} {outcome : α → Contents → Prop}
    (calm : store.hazard = .none)
    (leads : Leads (.reliable store.keyRule) work store.contents outcome) :
    outcome (work.run store).1 (work.run store).2.contents ∧
      (Circumstances.reliable store.keyRule).Hold (work.run store).2 :=
  (leads store (Circumstances.hold_of_calm calm) rfl).symm

/-- What is known of reliable work holds of its run on a store without a hazard. -/
theorem outcome_of_calm_run {store : Store} {work : StateM Store α}
    {outcome : α → Contents → Prop}
    (leads : Leads (.reliable store.keyRule) work store.contents outcome) :
    outcome (work.run { store with hazard := .none }).1
      (work.run { store with hazard := .none }).2.contents :=
  (@outcome_of_calm _ { store with hazard := .none } _ _ rfl leads).1

/-- An outcome may be weakened. -/
theorem mono {work : StateM Store α} {outcome weaker : α → Contents → Prop}
    (leads : Leads circumstances work before outcome)
    (implies : ∀ value after, outcome value after → weaker value after) :
    Leads circumstances work before weaker := by
  intro store hold start
  obtain ⟨holds, reached⟩ := leads store hold start
  exact ⟨holds, implies _ _ reached⟩

/-- Two outcomes of the same work are both reached. -/
theorem both {work : StateM Store α} {one other : α → Contents → Prop}
    (first : Leads circumstances work before one) (second : Leads circumstances work before other) :
    Leads circumstances work before fun value after => one value after ∧ other value after := by
  intro store hold start
  obtain ⟨holds, reached⟩ := first store hold start
  exact ⟨holds, reached, (second store hold start).2⟩

/-- No work leaves everything as it is. -/
theorem pure {value : α} {outcome : α → Contents → Prop} (reached : outcome value before) :
    Leads circumstances (Pure.pure value : StateM Store α) before outcome := by
  intro store hold start
  subst start
  exact ⟨hold, reached⟩

/-- Work after work. -/
theorem bind {work : StateM Store α} {rest : α → StateM Store β}
    {middle : α → Contents → Prop} {outcome : β → Contents → Prop}
    (first : Leads circumstances work before middle)
    (second : ∀ value between, middle value between →
      Leads circumstances (rest value) between outcome) :
    Leads circumstances (work >>= rest) before outcome := by
  intro store hold start
  obtain ⟨holds, reached⟩ := first store hold start
  exact second _ _ reached _ holds rfl

/-- What a session must lead to for `rest` after it to end with the outcome: a failure
is the failure of both. -/
@[reducible] def Continues (circumstances : Circumstances) (rest : α → Session β)
    (outcome : Except StoreError β → Contents → Prop) : Except StoreError α → Contents → Prop
  | .ok value, between => Leads circumstances (rest value).run between outcome
  | .error error, between => outcome (.error error) between

/-- A session after a session. -/
theorem andThen {session : Session α} {rest : α → Session β}
    {outcome : Except StoreError β → Contents → Prop}
    (first : Leads circumstances session.run before (Continues circumstances rest outcome)) :
    Leads circumstances (session >>= rest).run before outcome := by
  rw [ExceptT.run_bind]
  refine bind first fun result between reached => ?_
  cases result with
  | error error => exact pure reached
  | ok value => exact reached

/-- A session after a session of which an outcome is known. -/
theorem follow {session : Session α} {rest : α → Session β}
    {middle : Except StoreError α → Contents → Prop}
    {outcome : Except StoreError β → Contents → Prop}
    (first : Leads circumstances session.run before middle)
    (failed : ∀ error between, middle (.error error) between → outcome (.error error) between)
    (next : ∀ value between, middle (.ok value) between →
      Leads circumstances (rest value).run between outcome) :
    Leads circumstances (session >>= rest).run before outcome := by
  refine andThen (first.mono fun result between reached => ?_)
  cases result with
  | error error => exact failed error between reached
  | ok value => exact next value between reached

/-- A result is taken as it is. -/
theorem ofExcept {result : Except StoreError α} {outcome : Except StoreError α → Contents → Prop}
    (reached : outcome result before) :
    Leads circumstances (Session.ofExcept result).run before outcome :=
  pure reached

theorem give {value : α} {outcome : Except StoreError α → Contents → Prop}
    (reached : outcome (.ok value) before) :
    Leads circumstances (Pure.pure value : Session α).run before outcome :=
  pure reached

theorem fail {error : StoreError} {outcome : Except StoreError α → Contents → Prop}
    (reached : outcome (.error error) before) :
    Leads circumstances (Session.fail error : Session α).run before outcome :=
  pure reached

/-- A failure that is looked at is a result like any other. -/
theorem attempt {session : Session α}
    {outcome : Except StoreError (Except StoreError α) → Contents → Prop}
    (leads : Leads circumstances session.run before fun result after =>
      outcome (.ok result) after) :
    Leads circumstances (Session.attempt session).run before outcome :=
  bind leads fun _ _ reached => pure reached

/-- Events change nothing. -/
theorem emit {event : Event} {outcome : Except StoreError Unit → Contents → Prop}
    (reached : outcome (.ok ()) before) :
    Leads circumstances (Session.emit event).run before outcome := by
  intro store hold start
  subst start
  exact ⟨hold.replace _ _, reached⟩

/-- Events that may be left out change nothing. -/
theorem emitIf {wanted : Bool} {event : Event} {outcome : Except StoreError Unit → Contents → Prop}
    (reached : outcome (.ok ()) before) :
    Leads circumstances (Session.emitIf wanted event).run before outcome := by
  unfold Session.emitIf
  split
  · exact emit reached
  · exact give reached

/-- A call changes nothing; it is let through or refused. -/
theorem call {kind : Call} {batch : Batch} {outcome : Except StoreError Unit → Contents → Prop}
    (refused : circumstances.mayRefuse → ∀ reason, outcome (.error (.engine reason)) before)
    (allowed : outcome (.ok ()) before) :
    Leads circumstances (Session.call kind batch).run before outcome := by
  intro store hold start
  subst start
  obtain ⟨alone, verdict⟩ := hold.alone.meet kind batch
  -- where no call may be refused there is no hazard to meet
  have calm : ¬ circumstances.mayRefuse →
      store.hazard.meet kind batch = (.ok (), Hazard.none) := by
    intro never
    rw [hold.calm never]
    rfl
  refine ⟨⟨hold.keyRule, alone, fun never => congrArg Prod.snd (calm never)⟩, ?_⟩
  show outcome (store.hazard.meet kind batch).1 store.contents
  rcases verdict with through | ⟨reason, refusal⟩
  · rw [through]
    exact allowed
  · by_cases may : circumstances.mayRefuse
    · rw [refusal]
      exact refused may reason
    · rw [calm may]
      exact allowed

/-- A look at a key that may be looked up shows what the contents have. -/
theorem look {region : Region} {key : Bytes} (present : key ≠ [])
    {outcome : Except StoreError (Option Bytes) → Contents → Prop}
    (reached : outcome (.ok (before.get? region key)) before) :
    Leads circumstances (Session.look region key).run before outcome := by
  intro store hold start
  subst start
  rw [Session.run_look present]
  exact ⟨hold, reached⟩

/-- A batch is applied to the contents, or refused by the engine's rule or for a key
that is taken. -/
theorem apply {batch : Batch} {outcome : Except StoreError Unit → Contents → Prop}
    (failed : ∀ error, before.commit circumstances.keyRule batch = .error error →
      outcome (.error error) before)
    (done : ∀ after, before.commit circumstances.keyRule batch = .ok after →
      outcome (.ok ()) after) :
    Leads circumstances (Session.apply batch).run before outcome := by
  intro store hold start
  subst start
  rw [Session.run_apply]
  cases result : store.contents.commit store.keyRule batch with
  | error error => exact ⟨hold, failed error (hold.keyRule ▸ result)⟩
  | ok contents => exact ⟨hold.replace _ _, done contents (hold.keyRule ▸ result)⟩

/-- A value is copied out, unless the call is refused. -/
theorem value? {region : Region} {key : Bytes} (present : key ≠ [])
    {outcome : Except StoreError (Option Bytes) → Contents → Prop}
    (refused : circumstances.mayRefuse → ∀ reason, outcome (.error (.engine reason)) before)
    (reached : outcome (.ok (before.get? region key)) before) :
    Leads circumstances (Session.value? region key).run before outcome :=
  andThen (call refused (look present reached))

theorem view? {region : Region} {key : Bytes} (present : key ≠ [])
    {outcome : Except StoreError (Option Bytes) → Contents → Prop}
    (refused : circumstances.mayRefuse → ∀ reason, outcome (.error (.engine reason)) before)
    (reached : outcome (.ok (before.get? region key)) before) :
    Leads circumstances (Session.view? region key).run before outcome :=
  andThen (call refused (look present reached))

/-- A key has a value or not, unless the call is refused. -/
theorem holds {region : Region} {key : Bytes} (present : key ≠ [])
    {outcome : Except StoreError Bool → Contents → Prop}
    (refused : circumstances.mayRefuse → ∀ reason, outcome (.error (.engine reason)) before)
    (reached : outcome (.ok (before.get? region key).isSome) before) :
    Leads circumstances (Session.holds region key).run before outcome :=
  andThen (value? present refused (give reached))

/-- A batch is committed as a whole or not at all. -/
theorem commit {batch : Batch} {outcome : Except StoreError Unit → Contents → Prop}
    (refused : circumstances.mayRefuse → ∀ reason, outcome (.error (.engine reason)) before)
    (failed : ∀ error, before.commit circumstances.keyRule batch = .error error →
      outcome (.error error) before)
    (done : ∀ after, before.commit circumstances.keyRule batch = .ok after →
      outcome (.ok ()) after) :
    Leads circumstances (Session.commit batch).run before outcome :=
  andThen (call refused (apply failed done))

/-- Buffered writes are made durable, unless the call is refused. -/
theorem flush {outcome : Except StoreError Unit → Contents → Prop}
    (refused : circumstances.mayRefuse → ∀ reason, outcome (.error (.engine reason)) before)
    (reached : outcome (.ok ()) before) :
    Leads circumstances Session.flush.run before outcome :=
  call refused reached

/-- Work that looks at the store first. -/
private theorem observe {rest : Store → Session β}
    {outcome : Except StoreError β → Contents → Prop}
    (next : ∀ store, store.contents = before →
      Leads circumstances (rest store).run before outcome) :
    Leads circumstances (get >>= rest : Session β).run before outcome :=
  fun store hold start => next store start store hold start

/-- What a scan does after its visit: with nobody else writing it gives the result of
the visit back. -/
private theorem afterVisit {region : Region} (result : α)
    {outcome : Except StoreError α → Contents → Prop} (reached : outcome (.ok result) before) :
    Leads circumstances
      (do let (batch, hazard) := (← get).hazard.afterScan region
          modify fun store => { store with hazard }
          Session.apply batch
          return result : Session α).run before outcome := by
  intro store hold start
  subst start
  rw [hold.alone.run_afterVisit]
  exact ⟨hold, reached⟩

/-- A region is visited as it stands, unless the call is refused. -/
theorem scan {region : Region} {visit : OrderedMap Bytes Bytes → Session α}
    {outcome : Except StoreError α → Contents → Prop}
    (refused : circumstances.mayRefuse → ∀ reason, outcome (.error (.engine reason)) before)
    (visited : Leads circumstances (visit (before.region region)).run before outcome) :
    Leads circumstances (Session.scan region visit).run before outcome := by
  refine andThen (call refused (observe fun store start => ?_))
  subst start
  refine andThen (visited.mono fun result between reached => ?_)
  cases result with
  | error error => exact reached
  | ok result => exact afterVisit result reached

theorem count {region : Region} {outcome : Except StoreError Nat → Contents → Prop}
    (refused : circumstances.mayRefuse → ∀ reason, outcome (.error (.engine reason)) before)
    (reached : outcome (.ok (before.region region).size) before) :
    Leads circumstances (Session.count region).run before outcome :=
  scan refused (give reached)

end Leads

end Depot
