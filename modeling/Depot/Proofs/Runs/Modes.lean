import Depot.Proofs.Bucket.Modes
import Depot.Proofs.Runs

/-!
# The write modes as a client sees them

A client makes one request after the other and decides on each by all that it has seen so
far: the replies, the objects given back, and what the regions hold in between. On an engine
in memory whose calls are never refused, no client can tell the modes apart, whatever the
regions held at the start and whatever identities its objects have.
-/

namespace Depot

/-- What a request is answered with. -/
inductive Reply where
  | created (result : Except StoreError Object)
  | batchCreated (creation : Bucket.Creation)
  | metadata (result : Except StoreError Metadata)
  | payload (result : Except StoreError Bytes)
  | object (result : Except StoreError Object)
  | truth (result : Except StoreError Bool)
  | number (result : Except StoreError Nat)
  | delivered (delivery : Bucket.Delivery)
  | answered (result : Except StoreError Bucket.Answer)
  | objects (result : Except StoreError (List Object))
  | done (result : Except StoreError Unit)
  | report (result : Except StoreError Reconciliation.Report)

/-- The objects that are given back with a reply. -/
def Request.back (request : Request) : Reply → List Object
  | .created (.ok stored) => [stored]
  | .batchCreated creation => creation.objects
  | _ => request.objects

namespace Bucket

/-- Serves a request and gives the reply. -/
def reply (bucket : Bucket) : Request → StateM Store Reply
  | .create object => Reply.created <$> (bucket.create object).run
  | .createBatch objects => Reply.batchCreated <$> bucket.createBatch objects
  | .metadata identity => Reply.metadata <$> (bucket.metadata identity).run
  | .payload identity => Reply.payload <$> (bucket.payload identity).run
  | .fetch identity => Reply.object <$> (bucket.fetch identity).run
  | .fetchNamed name owner => Reply.object <$> (bucket.fetchNamed name owner).run
  | .contains identity => Reply.truth <$> (bucket.contains identity).run
  | .size => Reply.number <$> bucket.size.run
  | .isEmpty => Reply.truth <$> bucket.isEmpty.run
  | .stream identity sink => Reply.delivered <$> bucket.stream identity sink
  | .run selection => Reply.answered <$> (bucket.run selection).run
  | .fetchSelected selection => Reply.objects <$> (bucket.fetchSelected selection).run
  | .deleteSelected selection => Reply.number <$> (bucket.deleteSelected selection).run
  | .delete identity => Reply.done <$> (bucket.delete identity).run
  | .deleteNamed name owner => Reply.done <$> (bucket.deleteNamed name owner).run
  | .flush => Reply.done <$> bucket.flush.run
  | .reconcile => Reply.report <$> bucket.reconcile.run

/-- To serve a request is to reply to it and to give its objects back. -/
theorem serve_eq (bucket : Bucket) (request : Request) :
    bucket.serve request = request.back <$> bucket.reply request := by
  cases request with
  | create object =>
      rw [serve, reply, Functor.map_map, map_eq_pure_bind]
      refine bind_congr fun result => ?_
      cases result with
      | ok stored => rfl
      | error error => rfl
  | _ => rfl

end Bucket

/-- What a client has seen of a request. -/
structure Exchange where
  request : Request
  reply : Reply
  objects : List Object
  /-- What the regions held afterwards. -/
  contents : Contents

namespace Bucket

/-- Serves so many requests of a client, who decides on each by what was seen so far. -/
def converse (bucket : Bucket) (client : List Exchange → Request) :
    Nat → StateM Store (List Exchange)
  | 0 => return []
  | count + 1 => do
    let seen ← bucket.converse client count
    let request := client seen
    let reply ← bucket.reply request
    return seen ++ [⟨request, reply, request.back reply, (← get).contents⟩]

variable {contents : Contents}

/-- Nobody else writes and no call is refused, during a request as before. -/
theorem leads_reply {circumstances : Circumstances} (bucket : Bucket) (request : Request) :
    Leads circumstances (bucket.reply request) contents fun _ _ => True := by
  intro store hold start
  have served := (bucket.leads_serve request store hold start).1
  rw [serve_eq, StateT.run_map] at served
  exact ⟨served, trivial⟩

/-- On a calm engine in memory, both modes reply to a request in the same way. -/
theorem agrees_reply (bucket : Bucket) (request : Request) :
    Agrees (.reliable .unrestricted) ((bucket.withMode .atomic).reply request)
      ((bucket.withMode .independent).reply request) contents := by
  cases request with
  | create object => exact Agrees.map _ (agrees_create bucket object)
  | createBatch objects => exact Agrees.map _ (agrees_createBatch bucket objects)
  | fetchSelected selection =>
      simp only [reply, fetchSelected_withMode]
      exact Agrees.refl _
  | run selection => exact Agrees.map _ (agrees_run bucket selection)
  | deleteSelected selection => exact Agrees.map _ (agrees_deleteSelected bucket selection)
  | delete identity => exact Agrees.map _ (agrees_delete bucket identity)
  | deleteNamed name owner => exact Agrees.map _ (agrees_deleteNamed bucket name owner)
  | _ => exact Agrees.refl _

theorem leads_converse {circumstances : Circumstances} (bucket : Bucket)
    (client : List Exchange → Request) (count : Nat) :
    Leads circumstances (bucket.converse client count) contents fun _ _ => True := by
  induction count with
  | zero => exact Leads.pure trivial
  | succ count inductionHypothesis =>
      refine Leads.bind inductionHypothesis fun seen between _ => ?_
      refine Leads.bind (bucket.leads_reply (client seen)) fun reply after _ => ?_
      exact fun store hold _ => ⟨hold, trivial⟩

/-- On a calm engine in memory, both modes converse with a client in the same way. -/
theorem agrees_converse (bucket : Bucket) (client : List Exchange → Request) (count : Nat) :
    Agrees (.reliable .unrestricted) ((bucket.withMode .atomic).converse client count)
      ((bucket.withMode .independent).converse client count) contents := by
  induction count with
  | zero => exact Agrees.refl _
  | succ count inductionHypothesis =>
      refine Agrees.bind inductionHypothesis (leads_converse _ client count) ?_
      intro seen between _
      refine Agrees.bind (bucket.agrees_reply (client seen)) (leads_reply _ (client seen)) ?_
      exact fun _ _ _ => Agrees.refl _

/-- On an engine in memory whose calls are not refused, whatever it holds, every client sees
the same in both modes: the same replies, the same objects given back, and the same contents
of the regions after every request. The same events are left, too. -/
theorem converse_atomic_eq_independent (bucket : Bucket) (client : List Exchange → Request)
    (count : Nat) (contents : Contents) :
    ((bucket.withMode .atomic).converse client count).run { contents }
      = ((bucket.withMode .independent).converse client count).run { contents } :=
  bucket.agrees_converse client count _ ⟨rfl, trivial, fun _ => rfl⟩ rfl

end Bucket

end Depot
