import Depot.Proofs.Bucket.Selecting
import Depot.Proofs.Bucket.Streaming
import Depot.Proofs.Consistency.Names

/-!
# Runs of a bucket

A run is any sequence of requests to an open bucket, in any order, with any calls of the
engine refused on the way. Every request takes one of three courses: objects are stored,
objects are removed, or the regions are reconciled. So what holds of a store throughout a
run is proved course by course. Answers are given by the operations themselves and are
not part of a run.
-/

namespace Depot

/-- What can be asked of an open bucket. -/
inductive Request where
  | create (object : Object)
  | createBatch (objects : List Object)
  | metadata (identity : Uuid)
  | payload (identity : Uuid)
  | fetch (identity : Uuid)
  | fetchNamed (name owner : String)
  | contains (identity : Uuid)
  | size
  | isEmpty
  | stream (identity : Uuid) (sink : Sink)
  | run (selection : Selection)
  | fetchSelected (selection : Selection)
  | deleteSelected (selection : Selection)
  | delete (identity : Uuid)
  | deleteNamed (name owner : String)
  | flush
  | reconcile

/-- The objects that are handed over with a request. -/
def Request.objects : Request → List Object
  | .create object => [object]
  | .createBatch objects => objects
  | _ => []

/-- A session of which only the effect counts. -/
def Session.effect {α : Type} (session : Session α) : StateM Store Unit := do
  let _ ← session.run

/-- Serves a request; gives back the objects that were handed over with it. -/
def Bucket.serve (bucket : Bucket) : Request → StateM Store (List Object)
  | .create object => do
    match ← (bucket.create object).run with
    | .ok stored => return [stored]
    | .error _ => return [object]
  | .createBatch objects => return (← bucket.createBatch objects).objects
  | .metadata identity => do (bucket.metadata identity).effect; return []
  | .payload identity => do (bucket.payload identity).effect; return []
  | .fetch identity => do (bucket.fetch identity).effect; return []
  | .fetchNamed name owner => do (bucket.fetchNamed name owner).effect; return []
  | .contains identity => do (bucket.contains identity).effect; return []
  | .size => do bucket.size.effect; return []
  | .isEmpty => do bucket.isEmpty.effect; return []
  | .stream identity sink => do let _ ← bucket.stream identity sink; return []
  | .run selection => do (bucket.run selection).effect; return []
  | .fetchSelected selection => do (bucket.fetchSelected selection).effect; return []
  | .deleteSelected selection => do (bucket.deleteSelected selection).effect; return []
  | .delete identity => do (bucket.delete identity).effect; return []
  | .deleteNamed name owner => do (bucket.deleteNamed name owner).effect; return []
  | .flush => do bucket.flush.effect; return []
  | .reconcile => do bucket.reconcile.effect; return []

/-- The identities of the objects that a request is to remove. -/
def Request.targets (contents : Contents) : Request → List Uuid
  | .run selection => contents.doomed selection
  | .deleteSelected selection => contents.matched selection
  | .delete identity => [identity]
  | .deleteNamed name owner => (contents.resolved name owner).toOption.toList
  | _ => []

/-- What a request may leave, whichever calls fail: how many of its objects are stored, and
the contents. -/
inductive Outcome (bucket : Bucket) (before : Contents) : Request → Nat → Contents → Prop where
  | created {request : Request} {count : Nat} {after : Contents}
      (created : before.Created bucket request.objects count after) :
      Outcome bucket before request count after
  | pruned {request : Request} {after : Contents}
      (pruned : before.Pruned bucket.settings.writeMode (request.targets before) after) :
      Outcome bucket before request 0 after
  | repaired : Outcome bucket before .reconcile 0 (Reconciliation.reconciled before)

/-- The courses that a request with these objects can take, whatever it is to remove: how
many of the objects are stored, and what is left. -/
inductive Course (bucket : Bucket) (objects : List Object) (before : Contents) :
    Nat → Contents → Prop where
  | created {count : Nat} {after : Contents}
      (created : before.Created bucket objects count after) :
      Course bucket objects before count after
  | removed {after : Contents} (removals : before.Removals bucket.settings.writeMode after) :
      Course bucket objects before 0 after
  | repaired : Course bucket objects before 0 (Reconciliation.reconciled before)

/-- Every outcome is reached on one of the courses. -/
theorem Outcome.course {bucket : Bucket} {before after : Contents} {request : Request} {count : Nat}
    (outcome : Outcome bucket before request count after) :
    Course bucket request.objects before count after := by
  cases outcome with
  | created created => exact .created created
  | pruned pruned => exact .removed pruned.removals
  | repaired => exact .repaired

/-- Every course adds no record, or indexes objects that may be stored under different names,
after it wrote their content. -/
theorem Course.within_or_indexed {bucket : Bucket} {objects : List Object} {before after : Contents}
    {count : Nat} (course : Course bucket objects before count after) :
    after.RecordsWithin before ∨
      (∀ object ∈ objects, object.Storable bucket.settings.requireContentType) ∧
        ((objects.map Object.entry).map Entry.nameKey).Nodup ∧
        (before.withPayloads (objects.map Object.entry)).Indexed (objects.map Object.entry) count
          after := by
  cases course with
  | created created =>
      rcases created.indexed with ⟨_, rfl⟩ | indexed
      · exact .inl fun _ _ found => found
      · exact .inr indexed
  | removed removals => exact .inl removals.recordsWithin
  | repaired => exact .inl (Contents.recordsWithin_reconciled before)

namespace Bucket

variable {circumstances : Circumstances} {before : Contents} {bucket : Bucket}

/-- How a request ends: in one of its outcomes, and the objects that were stored are given
back sealed. -/
def Fulfils (bucket : Bucket) (request : Request) (before : Contents) (back : List Object)
    (after : Contents) : Prop :=
  ∃ count, Outcome bucket before request count after ∧
    back = (request.objects.take count).map Object.sealed ++ request.objects.drop count

/-- What a request leads to: it takes one of the courses, and the objects that were
stored are given back sealed. -/
def Serves (bucket : Bucket) (objects : List Object) (before : Contents) (back : List Object)
    (after : Contents) : Prop :=
  ∃ count, Course bucket objects before count after ∧
    back = (objects.take count).map Object.sealed ++ objects.drop count

/-- A request without objects is fulfilled if no more is removed than it is to remove. -/
theorem fulfils_of_pruned {request : Request} {after : Contents} (handed : request.objects = [])
    (pruned : before.Pruned bucket.settings.writeMode (request.targets before) after) :
    bucket.Fulfils request before [] after :=
  ⟨0, .pruned pruned, by rw [handed]; rfl⟩

/-- The effect of a session is all that counts where no objects are handed over. -/
theorem leads_effect {α : Type} {session : Session α} {outcome : List Object → Contents → Prop}
    (leads : Leads circumstances session.run before fun _ after => outcome [] after) :
    Leads circumstances (do session.effect; return [] : StateM Store (List Object)) before
      outcome :=
  Leads.bind (Leads.bind leads fun _ _ => Leads.pure) fun _ _ => Leads.pure

/-- A look fulfils a request without objects. -/
theorem leads_look {α : Type} {session : Session α} {value : Except StoreError α}
    {request : Request} (handed : request.objects = [])
    (leads : Leads circumstances session.run before (Shows circumstances before value)) :
    Leads circumstances (do session.effect; return [] : StateM Store (List Object)) before
      (bucket.Fulfils request before) :=
  leads_effect (leads.mono fun _ _ shows => shows.1 ▸ fulfils_of_pruned handed (.self _))

/-- A session that removes no more than a request without objects is to remove fulfils it. -/
theorem leads_removal {α : Type} {session : Session α} {request : Request}
    (handed : request.objects = [])
    (leads : Leads circumstances session.run before fun _ after =>
      before.Pruned bucket.settings.writeMode (request.targets before) after) :
    Leads circumstances (do session.effect; return [] : StateM Store (List Object)) before
      (bucket.Fulfils request before) :=
  leads_effect (leads.mono fun _ _ pruned => fulfils_of_pruned handed pruned)

/-- Every request is fulfilled. -/
theorem leads_serve_fulfils (request : Request) :
    Leads circumstances (bucket.serve request) before (bucket.Fulfils request before) := by
  cases request with
  | create object =>
      refine Leads.bind leads_create fun result after reached => ?_
      obtain ⟨count, created, given⟩ := reached
      cases result with
      | error => exact Leads.pure ⟨count, .created created, by simp [given, Request.objects]⟩
      | ok stored => exact Leads.pure ⟨count, .created created, by simp [given, Request.objects]⟩
  | createBatch objects =>
      refine Leads.bind leads_createBatch fun creation after reached => ?_
      obtain ⟨count, created, given, _⟩ := reached
      exact Leads.pure ⟨count, .created created, given⟩
  | metadata identity => exact leads_look rfl (leads_metadata identity)
  | payload identity => exact leads_look rfl (leads_payload identity)
  | fetch identity => exact leads_look rfl (leads_fetch identity)
  | fetchNamed name owner => exact leads_look rfl (leads_fetchNamed name owner)
  | contains identity => exact leads_look rfl (leads_contains identity)
  | size => exact leads_look rfl leads_size
  | isEmpty => exact leads_look rfl leads_isEmpty
  | stream identity sink =>
      refine Leads.bind (leads_stream identity sink) fun _ after same => Leads.pure ?_
      exact same ▸ fulfils_of_pruned rfl (.self _)
  | run selection => exact leads_removal rfl (leads_run selection)
  | fetchSelected selection => exact leads_look rfl (leads_fetchSelected selection)
  | deleteSelected selection =>
      refine leads_removal rfl ((leads_deleteSelected selection).mono ?_)
      exact fun _ _ deletes => deletes.pruned
  | delete identity =>
      exact leads_removal rfl ((leads_delete identity).mono fun _ _ deletes => deletes.pruned)
  | deleteNamed name owner => exact leads_removal rfl (leads_deleteNamed_pruned name owner)
  | flush => exact leads_removal rfl (Leads.flush (fun _ _ => .self before) (.self before))
  | reconcile =>
      refine leads_effect (Reconciliation.leads_reconcile.mono fun result after ends => ?_)
      cases result with
      | error => exact ends.1 ▸ fulfils_of_pruned rfl (.self _)
      | ok => exact ⟨0, ends.1 ▸ .repaired, rfl⟩

/-- Every request is served, in one of the courses. -/
theorem leads_serve (request : Request) :
    Leads circumstances (bucket.serve request) before (bucket.Serves request.objects before) := by
  refine (bucket.leads_serve_fulfils request).mono fun back after fulfils => ?_
  obtain ⟨count, outcome, given⟩ := fulfils
  exact ⟨count, outcome.course, given⟩

end Bucket

/-- Objects that came about by the operations on objects, whatever is stored. -/
def AreMade (_contents : Contents) (objects : List Object) : Prop :=
  ∀ object ∈ objects, object.Made

/-- The entries of objects that can be made and may be stored are sound. -/
theorem sound_of_storable {requireContentType : Bool} {contents : Contents}
    {objects : List Object} (made : AreMade contents objects)
    (storable : ∀ object ∈ objects, object.Storable requireContentType) :
    ∀ entry ∈ objects.map Object.entry, entry.Sound :=
  List.forall_mem_map.2 fun object member =>
    Entry.sound (made object member) (storable object member)

/-- Every course keeps every record that of a stored object. -/
theorem Course.recorded {bucket : Bucket} {before after : Contents} {objects : List Object}
    {count : Nat} (made : AreMade before objects)
    (course : Course bucket objects before count after) (recorded : before.Recorded) :
    after.Recorded := by
  rcases course.within_or_indexed with within | ⟨storable, _, indexed⟩
  · exact recorded.within within
  · have within := Contents.recordsWithin_withPayloads before (objects.map Object.entry)
    exact (recorded.within within).indexed (sound_of_storable made storable) indexed

/-- Every course keeps a property of names that the names of sound entries have, and those that
a reconciliation leaves. -/
theorem Course.allNames {bucket : Bucket} {before after : Contents} {objects : List Object}
    {count : Nat} {holds : Bytes → Bytes → Prop} (made : AreMade before objects)
    (course : Course bucket objects before count after) (all : before.AllNames holds)
    (own : ∀ entry : Entry, entry.Sound → holds entry.nameKey entry.key)
    (left : (Reconciliation.reconciled before).AllNames holds) : after.AllNames holds := by
  cases course with
  | created created =>
      rcases created.indexed with ⟨_, rfl⟩ | ⟨storable, _, indexed⟩
      · exact all
      · have sound := sound_of_storable made storable
        exact all.written (fun entry member => own entry (sound entry member)) indexed
  | removed removals => exact all.removals removals
  | repaired => exact left

/-- The stores that a run can reach from a start. A request may be made if its objects
are admissible, and between requests the hazard may become any of one writer. -/
inductive Served (bucket : Bucket) (admissible : Contents → List Object → Prop) (start : Store) :
    Store → Prop where
  | start : Served bucket admissible start start
  | serve {store : Store} (prior : Served bucket admissible start store) (request : Request)
      (may : admissible store.contents request.objects) :
      Served bucket admissible start ((bucket.serve request).run store).2
  | arrange {store : Store} (prior : Served bucket admissible start store) (hazard : Hazard)
      (alone : hazard.IsAlone) : Served bucket admissible start { store with hazard }

variable {bucket : Bucket} {admissible : Contents → List Object → Prop} {start store : Store}

/-- What every course of an admissible request preserves holds throughout a run. -/
theorem Served.invariant {holds : Contents → Prop} (alone : start.hazard.IsAlone)
    (initially : holds start.contents)
    (step : ∀ {before after : Contents} {objects : List Object} {count : Nat},
      admissible before objects → Course bucket objects before count after → holds before →
        holds after)
    (served : Served bucket admissible start store) :
    store.hazard.IsAlone ∧ holds store.contents := by
  -- that nobody else writes is carried along, since requests use the hazard up
  induction served with
  | start => exact ⟨alone, initially⟩
  | @serve store prior request may inductionHypothesis =>
      obtain ⟨alone, held⟩ := inductionHypothesis
      have hold := Circumstances.hold_unreliable alone
      obtain ⟨holdsAfter, count, course, _⟩ := bucket.leads_serve request store hold rfl
      exact ⟨holdsAfter.alone, step may course held⟩
  | arrange prior hazard alone inductionHypothesis => exact ⟨alone, inductionHypothesis.2⟩

/-- A bucket that writes one region after the other, for single runs. -/
def Bucket.stepwise : Bucket := ⟨{ writeMode := .independent }, none⟩

end Depot
