import Depot.Proofs.Batch
import Depot.Proofs.Session.Agreement
import Depot.Proofs.Session.Footprint

/-!
# Work within a rule for keys

Engines differ in the keys that they refuse. Work abides by a rule if, where no call is
refused for another reason, it commits only batches whose keys the rule admits and never looks
the empty key up. This is put together from what a session is made of, with what is known of
the contents at every step. Work that abides by a rule ends on an engine of this rule as it
does on one in memory: with the same result, the same contents and the same events. A hazard
that lets every call through makes no difference either.
-/

namespace Depot

/-- A rule admits the key of a write: it may be bound, or may be looked up to be removed. -/
def KeyRule.Admits (rule : KeyRule) : Write → Prop
  | .put _ key _ | .putNew _ key _ => rule.admitsBinding key = true
  | .delete _ key => rule.admitsLookup key = true

/-- A hazard that lets every call through, stays as it is, and lets nobody else write. -/
structure Hazard.IsQuiet (hazard : Hazard) : Prop where
  alone : hazard.IsAlone
  passes : ∀ kind batch, hazard.meet kind batch = (.ok (), hazard)

theorem Hazard.isQuiet_none : Hazard.none.IsQuiet := ⟨trivial, fun _ _ => rfl⟩

/-- Another writer whose batch is through is not met again. -/
theorem Hazard.isQuiet_racing : (Hazard.racing Option.none).IsQuiet := ⟨trivial, fun _ _ => rfl⟩

/-- Under a quiet hazard a call does nothing. -/
theorem Session.run_call_of_quiet {store : Store} (quiet : store.hazard.IsQuiet) (kind : Call)
    (batch : Batch) : (Session.call kind batch).run.run store = (.ok (), store) := by
  show ((store.hazard.meet kind batch).1,
    { store with hazard := (store.hazard.meet kind batch).2 }) = _
  rw [quiet.passes]

/-- The store with an engine of another rule. -/
def Store.under (store : Store) (rule : KeyRule) : Store := { store with keyRule := rule }

/-- The store with an engine of another rule and amid other hazards. -/
def Store.amid (store : Store) (rule : KeyRule) (turn : Hazard → Hazard) : Store :=
  { store with keyRule := rule, hazard := turn store.hazard }

namespace Contents

variable {rule : KeyRule}

/-- A write whose key is admitted ends as in memory. -/
theorem apply_of_admits (contents : Contents) {write : Write} (admits : rule.Admits write) :
    contents.apply rule write = contents.apply .unrestricted write := by
  cases write with
  | put region key value =>
      have admitted : rule.admitsBinding key = true := admits
      simp only [apply, admitted, if_true]
      rfl
  | putNew region key value =>
      have admitted : rule.admitsBinding key = true := admits
      simp only [apply, admitted, if_true]
      rfl
  | delete region key =>
      have admitted : rule.admitsLookup key = true := admits
      simp only [apply, admitted, if_true]
      rfl

/-- Writes whose keys are all admitted end as in memory. -/
theorem applyAll_of_admits (contents : Contents) {writes : List Write}
    (admits : ∀ write ∈ writes, rule.Admits write) :
    contents.applyAll rule writes = contents.applyAll .unrestricted writes := by
  induction writes generalizing contents with
  | nil => rfl
  | cons write rest inductionHypothesis =>
      obtain ⟨here, later⟩ := List.forall_mem_cons.1 admits
      rw [applyAll, applyAll, contents.apply_of_admits here]
      cases contents.apply .unrestricted write with
      | error error => rfl
      | ok next => exact inductionHypothesis next later

end Contents

/-- From the contents `before`, and where no call is refused, work commits only what the rule
admits. -/
inductive Abides (rule : KeyRule) : {α : Type} → StateM Store α → Contents → Prop where
  | pure {α : Type} {before : Contents} (value : α) :
      Abides rule (Pure.pure value : StateM Store α) before
  | bind {α β : Type} {before : Contents} {work : StateM Store α} {rest : α → StateM Store β}
      {middle : α → Contents → Prop} (first : Abides rule work before)
      (leads : Leads (.reliable .unrestricted) work before middle)
      (second : ∀ value between, middle value between → Abides rule (rest value) between) :
      Abides rule (work >>= rest) before
  | map {α β : Type} {before : Contents} {work : StateM Store α} (change : α → β)
      (abides : Abides rule work before) : Abides rule (change <$> work) before
  /-- The contents are looked at from outside. -/
  | observe {before : Contents} : Abides rule (Store.contents <$> get) before
  | emit {before : Contents} (event : Event) : Abides rule (Session.emit event).run before
  | call {before : Contents} (kind : Call) (batch : Batch) :
      Abides rule (Session.call kind batch).run before
  | look {before : Contents} (region : Region) {key : Bytes} (present : key ≠ []) :
      Abides rule (Session.look region key).run before
  | apply {before : Contents} {batch : Batch}
      (admits : ∀ write ∈ batch.writes, rule.Admits write) :
      Abides rule (Session.apply batch).run before
  | scan {α : Type} {before : Contents} {region : Region}
      {visit : OrderedMap Bytes Bytes → Session α} {middle : Except StoreError α → Contents → Prop}
      (visited : Abides rule (visit (before.region region)).run before)
      (leads : Leads (.reliable .unrestricted) (visit (before.region region)).run before middle) :
      Abides rule (Session.scan region visit).run before

namespace Abides

variable {α β : Type} {rule : KeyRule} {before : Contents}

/-- On an engine that admits its keys, a batch is applied as in memory. -/
theorem run_apply_amid {turn : Hazard → Hazard} {batch : Batch}
    (admits : ∀ write ∈ batch.writes, rule.Admits write) {store : Store}
    (inMemory : store.keyRule = .unrestricted) :
    (Session.apply batch).run.run (store.amid rule turn)
      = (((Session.apply batch).run.run store).1,
        ((Session.apply batch).run.run store).2.amid rule turn) := by
  have same : store.contents.commit rule batch = store.contents.commit store.keyRule batch := by
    rw [inMemory]
    exact store.contents.applyAll_of_admits admits
  rw [Session.run_apply, Session.run_apply]
  dsimp only [Store.amid]
  rw [same]
  cases store.contents.commit store.keyRule batch with
  | ok contents => rfl
  | error error => rfl

/-- A region is visited as in memory if the visit ends as it does there. -/
theorem run_scan_amid {turn : Hazard → Hazard} (quiet : (turn .none).IsQuiet) {region : Region}
    {visit : OrderedMap Bytes Bytes → Session α}
    {middle : Except StoreError α → Contents → Prop} {store : Store}
    (hold : (Circumstances.reliable .unrestricted).Hold store)
    (visited : (visit (store.contents.region region)).run.run (store.amid rule turn)
      = (((visit (store.contents.region region)).run.run store).1,
        ((visit (store.contents.region region)).run.run store).2.amid rule turn))
    (leads : Leads (.reliable .unrestricted) (visit (store.contents.region region)).run
      store.contents middle) :
    (Session.scan region visit).run.run (store.amid rule turn)
      = (((Session.scan region visit).run.run store).1,
        ((Session.scan region visit).run.run store).2.amid rule turn) := by
  have calm : store.hazard = .none := hold.calm id
  have quietAmid : (store.amid rule turn).hazard.IsQuiet := by rwa [Store.amid, calm]
  have calmAfter := (leads store hold rfl).1.calm id
  rw [Session.scan, run_bind, run_bind, Session.run_call calm,
    Session.run_call_of_quiet quietAmid]
  show (visit (store.contents.region region) >>= fun result => _).run.run (store.amid rule turn)
    = (((visit (store.contents.region region) >>= fun result => _).run.run store).1,
      ((visit (store.contents.region region) >>= fun result => _).run.run store).2.amid rule turn)
  rw [run_bind, run_bind, visited]
  rcases ended : (visit (store.contents.region region)).run.run store with ⟨error | value, after⟩
  · rfl
  · rw [ended] at calmAfter
    have alone : after.hazard.IsAlone := by
      rw [calmAfter]
      trivial
    have aloneAmid : (after.amid rule turn).hazard.IsAlone := by
      rw [Store.amid, calmAfter]
      exact quiet.alone
    refine (aloneAmid.run_afterVisit region value).trans ?_
    exact (congrArg (fun last => (last.1, last.2.amid rule turn))
      (alone.run_afterVisit region value)).symm

/-- Work that abides by a rule ends on an engine of this rule and under a quiet hazard as it does
in memory. -/
theorem run_amid {work : StateM Store α} (abides : Abides rule work before)
    (turn : Hazard → Hazard) (quiet : (turn .none).IsQuiet) {store : Store}
    (hold : (Circumstances.reliable .unrestricted).Hold store) (start : store.contents = before) :
    work.run (store.amid rule turn)
      = ((work.run store).1, (work.run store).2.amid rule turn) := by
  induction abides generalizing store with
  | pure => rfl
  | bind _ leads _ first second =>
      obtain ⟨holds, reached⟩ := leads store hold start
      rw [StateT.run_bind, StateT.run_bind, first hold start]
      exact second _ _ reached holds rfl
  | map change _ inductionHypothesis =>
      rw [StateT.run_map, StateT.run_map, inductionHypothesis hold start]
      rfl
  | observe => rfl
  | emit => rfl
  | call kind batch =>
      have calm : store.hazard = .none := hold.calm id
      have quietAmid : (store.amid rule turn).hazard.IsQuiet := by rwa [Store.amid, calm]
      rw [Session.run_call calm, Session.run_call_of_quiet quietAmid]
  | look region present =>
      rw [Session.run_look present, Session.run_look present]
      rfl
  | apply admits => exact run_apply_amid admits hold.keyRule
  | scan _ leads inductionHypothesis =>
      subst start
      exact run_scan_amid quiet hold (inductionHypothesis hold rfl) leads

/-- Work that abides by a rule ends on an engine of this rule as it does in memory. -/
theorem run_under {work : StateM Store α} (abides : Abides rule work before) {store : Store}
    (hold : (Circumstances.reliable .unrestricted).Hold store) (start : store.contents = before) :
    work.run (store.under rule) = ((work.run store).1, (work.run store).2.under rule) :=
  abides.run_amid id Hazard.isQuiet_none hold start

/-- What is known of work in memory holds of its run on an engine with a rule that it abides
by and under a quiet hazard. -/
theorem outcome_of_run {store : Store} {work : StateM Store α} {outcome : α → Contents → Prop}
    (abides : Abides store.keyRule work store.contents) (quiet : store.hazard.IsQuiet)
    (leads : Leads (.reliable .unrestricted) work store.contents outcome) :
    outcome (work.run store).1 (work.run store).2.contents ∧
      (work.run store).2.hazard = store.hazard := by
  let calm : Store := { store with keyRule := .unrestricted, hazard := .none }
  have hold : (Circumstances.reliable .unrestricted).Hold calm := ⟨rfl, trivial, fun _ => rfl⟩
  have ran := abides.run_amid (fun _ => store.hazard) quiet hold rfl
  rw [show calm.amid store.keyRule (fun _ => store.hazard) = store from rfl] at ran
  rw [ran]
  exact ⟨(leads calm hold rfl).2, rfl⟩

end Abides

/-- What work may use of an engine with a rule: it looks no empty key up and commits what the rule
admits. -/
def KeyRule.footprint (rule : KeyRule) : Footprint where
  looks _ key := key ≠ []
  writes := rule.Admits
  visits _ := True

/-- Work that keeps to the footprint of a rule abides by it. -/
theorem Uses.abides {α : Type} {rule : KeyRule} {before : Contents} {work : StateM Store α}
    (uses : Uses (.reliable .unrestricted) rule.footprint work before) :
    Abides rule work before := by
  induction uses with
  | pure value => exact .pure value
  | bind _ leads _ first second => exact .bind first leads second
  | map change _ inductionHypothesis => exact .map change inductionHypothesis
  | emit event => exact .emit event
  | call kind batch => exact .call kind batch
  | look present => exact .look _ present
  | apply admits => exact .apply admits
  | scan _ _ leads inductionHypothesis => exact .scan inductionHypothesis leads

end Depot
