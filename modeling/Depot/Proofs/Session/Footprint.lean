import Depot.Proofs.Session

/-!
# What work uses of an engine

A footprint says which keys may be looked up, which writes may be committed and which regions
may be visited as a whole. That work keeps to a footprint is put together from what a session is
made of, with what is known of the contents at every step. What follows for the work is a
question of the footprint alone.
-/

namespace Depot

/-- What work may use of an engine. -/
structure Footprint where
  looks : Region → Bytes → Prop
  writes : Write → Prop
  visits : Region → Prop

/-- In the circumstances, work that starts from the contents `before` keeps to a footprint. -/
inductive Uses (circumstances : Circumstances) (footprint : Footprint) :
    {α : Type} → StateM Store α → Contents → Prop where
  | pure {α : Type} {before : Contents} (value : α) :
      Uses circumstances footprint (Pure.pure value : StateM Store α) before
  | bind {α β : Type} {before : Contents} {work : StateM Store α} {rest : α → StateM Store β}
      {middle : α → Contents → Prop} (first : Uses circumstances footprint work before)
      (leads : Leads circumstances work before middle)
      (second : ∀ value between, middle value between →
        Uses circumstances footprint (rest value) between) :
      Uses circumstances footprint (work >>= rest) before
  | map {α β : Type} {before : Contents} {work : StateM Store α} (change : α → β)
      (uses : Uses circumstances footprint work before) :
      Uses circumstances footprint (change <$> work) before
  | emit {before : Contents} (event : Event) :
      Uses circumstances footprint (Session.emit event).run before
  | call {before : Contents} (kind : Call) (batch : Batch) :
      Uses circumstances footprint (Session.call kind batch).run before
  | look {before : Contents} {region : Region} {key : Bytes} (may : footprint.looks region key) :
      Uses circumstances footprint (Session.look region key).run before
  | apply {before : Contents} {batch : Batch}
      (may : ∀ write ∈ batch.writes, footprint.writes write) :
      Uses circumstances footprint (Session.apply batch).run before
  | scan {α : Type} {before : Contents} {region : Region}
      {visit : OrderedMap Bytes Bytes → Session α} {middle : Except StoreError α → Contents → Prop}
      (may : footprint.visits region)
      (visited : Uses circumstances footprint (visit (before.region region)).run before)
      (leads : Leads circumstances (visit (before.region region)).run before middle) :
      Uses circumstances footprint (Session.scan region visit).run before

namespace Uses

variable {α β : Type} {circumstances : Circumstances} {footprint : Footprint} {before : Contents}

/-- A session after a session of which an outcome is known. -/
theorem follow {session : Session α} {rest : α → Session β}
    {middle : Except StoreError α → Contents → Prop}
    (first : Uses circumstances footprint session.run before)
    (leads : Leads circumstances session.run before middle)
    (second : ∀ value between, middle (.ok value) between →
      Uses circumstances footprint (rest value).run between) :
    Uses circumstances footprint (session >>= rest).run before := by
  rw [ExceptT.run_bind]
  refine bind first leads fun result between reached => ?_
  cases result with
  | error error => exact pure _
  | ok value => exact second value between reached

/-- A session after a session whose failure is looked at. -/
theorem attempt {session : Session α} {rest : Except StoreError α → Session β}
    {middle : Except StoreError α → Contents → Prop}
    (first : Uses circumstances footprint session.run before)
    (leads : Leads circumstances session.run before middle)
    (second : ∀ result between, middle result between →
      Uses circumstances footprint (rest result).run between) :
    Uses circumstances footprint (Session.attempt session >>= rest).run before :=
  bind first leads second

theorem ofExcept (result : Except StoreError α) :
    Uses circumstances footprint (Session.ofExcept result).run before :=
  pure result

theorem give (value : α) : Uses circumstances footprint (Pure.pure value : Session α).run before :=
  pure (Except.ok value : Except StoreError α)

theorem fail (error : StoreError) :
    Uses circumstances footprint (Session.fail error : Session α).run before :=
  pure (Except.error error : Except StoreError α)

theorem emitIf (wanted : Bool) (event : Event) :
    Uses circumstances footprint (Session.emitIf wanted event).run before := by
  cases wanted with
  | false => exact give ()
  | true => exact emit event

/-- A call and a session after it. -/
theorem callThen {kind : Call} {batch : Batch} {rest : Session β}
    (second : Uses circumstances footprint rest.run before) :
    Uses circumstances footprint (do Session.call kind batch; rest).run before := by
  refine follow (call kind batch)
    (@Leads.call _ before kind batch (fun _ after => after = before) (fun _ _ => rfl) rfl) ?_
  rintro _ _ rfl
  exact second

theorem value? {region : Region} {key : Bytes} (may : footprint.looks region key) :
    Uses circumstances footprint (Session.value? region key).run before :=
  callThen (look may)

theorem view? {region : Region} {key : Bytes} (may : footprint.looks region key) :
    Uses circumstances footprint (Session.view? region key).run before :=
  callThen (look may)

theorem count {region : Region} (may : footprint.visits region) :
    Uses circumstances footprint (Session.count region).run before :=
  @scan circumstances footprint Nat before region (fun entries => return entries.size)
    (fun _ _ => True) may (give _) (Leads.give trivial)

/-- A batch is committed. -/
theorem commit {batch : Batch} (may : ∀ write ∈ batch.writes, footprint.writes write) :
    Uses circumstances footprint (Session.commit batch).run before :=
  callThen (apply may)

/-- A session after a commit, whatever the commit leaves. -/
theorem commitThen {batch : Batch} {rest : Session α}
    (may : ∀ write ∈ batch.writes, footprint.writes write)
    (second : ∀ between, Uses circumstances footprint rest.run between) :
    Uses circumstances footprint (do Session.commit batch; rest).run before := by
  have trivially : Leads circumstances (Session.commit batch).run before fun _ _ => True :=
    Leads.commit (fun _ _ => trivial) (fun _ _ => trivial) fun _ _ => trivial
  exact follow (commit may) trivially fun _ between _ => second between

end Uses

end Depot
