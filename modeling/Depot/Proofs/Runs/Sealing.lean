import Depot.Proofs.Consistency.Payloads
import Depot.Proofs.Consistency.Selecting
import Depot.Proofs.Runs.Modes
import Depot.Proofs.Runs.Workspace

/-!
# Which request an object comes from

A request to store objects seals those that it stored completely. An object may be handed
over several times before it is sealed, with other content and other metadata each time, and
a request that fails may leave some of what it wrote. Along every run, whatever calls are
refused, what is found under an identity is an object exactly as one request sealed it, and
no other request sealed an object of this identity. So an object that no request sealed is
never found.
-/

namespace Depot

/-- The objects that a request sealed, as they were handed over. -/
def Exchange.sealings (exchange : Exchange) : List Object :=
  ((exchange.request.objects.zip exchange.objects).filter fun pair =>
    !pair.1.isSealed && pair.2.isSealed).map Prod.fst

/-- The objects that a sequence of requests sealed. -/
def sealings (seen : List Exchange) : List Object := seen.flatMap Exchange.sealings

/-- An object is given in answer to what is asked of a store. -/
inductive Bucket.Gives (bucket : Bucket) (store : Store) (object : Object) : Prop where
  | fetched {identity : Uuid}
      (done : ((bucket.fetch identity).run.run store).1 = .ok object) : Gives bucket store object
  | fetchedNamed {name owner : String}
      (done : ((bucket.fetchNamed name owner).run.run store).1 = .ok object) :
      Gives bucket store object
  | selected {selection : Selection} {objects : List Object}
      (done : ((bucket.fetchSelected selection).run.run store).1 = .ok objects)
      (member : object ∈ objects) : Gives bucket store object
  | answered {selection : Selection} {objects : List Object}
      (done : ((bucket.run selection).run.run store).1 = .ok (.fetched objects))
      (member : object ∈ objects) : Gives bucket store object

namespace Workspace

/-- What can be reached from a store with nothing at hand by making objects, changing them and
handing them over with any requests, and what was exchanged on the way. -/
inductive Followed (bucket : Bucket) (start : Store) : Workspace → List Exchange → Prop where
  | start : Followed bucket start ⟨start, []⟩ []
  | make {store : Store} {objects : List Object} {seen : List Exchange} {identity owner : Uuid}
      {name : String} {now : Instant} (prior : Followed bucket start ⟨store, objects⟩ seen)
      (fresh : identity ∉ objects.map Object.identity)
      (fits : (Object.make identity owner name now).metadata.FitsWords) :
      Followed bucket start ⟨store, Object.make identity owner name now :: objects⟩ seen
  | change {store : Store} {front back : List Object} {seen : List Exchange}
      {object after : Object} (prior : Followed bucket start ⟨store, front ++ object :: back⟩ seen)
      (change : object.Change after) (fits : after.metadata.FitsWords) :
      Followed bucket start ⟨store, front ++ after :: back⟩ seen
  | serve {store after : Store} {objects rest : List Object} {seen : List Exchange} {reply : Reply}
      (prior : Followed bucket start ⟨store, objects⟩ seen) (request : Request)
      (held : objects.Perm (request.objects ++ rest))
      (done : (bucket.reply request).run store = (reply, after)) :
      Followed bucket start ⟨after, request.back reply ++ rest⟩
        (seen ++ [⟨request, reply, request.back reply, after.contents⟩])
  | arrange {store : Store} {objects : List Object} {seen : List Exchange}
      (prior : Followed bucket start ⟨store, objects⟩ seen) (hazard : Hazard)
      (alone : hazard.IsAlone) : Followed bucket start ⟨{ store with hazard }, objects⟩ seen

end Workspace

variable {bucket : Bucket} {before after contents : Contents} {objects rest back : List Object}
  {seen : List Exchange} {count : Nat} {object : Object} {start store : Store} {work : Workspace}

/-- Of objects that come back, the first of them sealed, those are sealed by the request that
are among the first and were unsealed. -/
theorem Exchange.sealings_of_taken {exchange : Exchange}
    (given : exchange.objects = (exchange.request.objects.take count).map Object.sealed
      ++ exchange.request.objects.drop count) :
    exchange.sealings = (exchange.request.objects.take count).filter fun object =>
      !object.isSealed := by
  rw [Exchange.sealings, given]
  clear given
  induction exchange.request.objects generalizing count with
  | nil => simp
  | cons object rest inductionHypothesis =>
      cases count with
      | zero =>
          have kept := @inductionHypothesis 0
          cases isSealed : object.isSealed <;> simpa [isSealed] using kept
      | succ count =>
          have kept := @inductionHypothesis count
          cases isSealed : object.isSealed <;> simpa [isSealed, Object.sealed] using kept

/-- A sealed object that is handed over comes back, whether or not it is among the first. -/
theorem Object.sealed_mem_back (count : Nat) (given : object.sealed ∈ objects) :
    object.sealed ∈ (objects.take count).map Object.sealed ++ objects.drop count := by
  rw [← List.take_append_drop count objects] at given
  rcases List.mem_append.1 given with taken | left
  · exact List.mem_append_left _ (List.mem_map.2 ⟨object.sealed, taken, rfl⟩)
  · exact List.mem_append_right _ left

/-- A selection that is answered with objects is one that fetches them. -/
theorem Bucket.fetchSelected_of_run {selection : Selection}
    (done : ((bucket.run selection).run.run store).1 = .ok (.fetched objects)) :
    ((bucket.fetchSelected selection).run.run store).1 = .ok objects := by
  unfold Bucket.run at done
  cases purpose : selection.purpose with
  | fetch =>
      rw [purpose, ExceptT.run_map, StateT.run_map] at done
      change Except.map Answer.fetched ((bucket.fetchSelected selection).run.run store).1 = _
        at done
      cases fetched : ((bucket.fetchSelected selection).run.run store).1 with
      | error error => simp [fetched, Except.map] at done
      | ok found => simpa [fetched, Except.map] using done
  | delete =>
      rw [purpose, ExceptT.run_map, StateT.run_map] at done
      change Except.map Answer.deleted ((bucket.deleteSelected selection).run.run store).1 = _
        at done
      cases deleted : ((bucket.deleteSelected selection).run.run store).1 <;>
        simp [deleted, Except.map] at done

/-- What a bucket gives is the object of an identity. -/
theorem Bucket.Gives.objectOf (gives : bucket.Gives store object) (alone : store.hazard.IsAlone) :
    ∃ identity, store.contents.objectOf identity = .ok object := by
  have among : ∀ {selection objects},
      ((bucket.fetchSelected selection).run.run store).1 = .ok objects → object ∈ objects →
        ∃ identity, store.contents.objectOf identity = .ok object := by
    intro selection objects done member
    have shows := (bucket.leads_fetchSelected selection).outcome_of_run alone done
    obtain ⟨identities, _, found⟩ := bind_eq_ok_iff.1 shows.eq_of_ok
    obtain ⟨identity, _, fetched⟩ := Contents.objectOf_of_mem_objectsOf found member
    exact ⟨identity, fetched⟩
  cases gives with
  | @fetched identity done =>
      exact ⟨identity, ((bucket.leads_fetch identity).outcome_of_run alone done).eq_of_ok⟩
  | @fetchedNamed name owner done =>
      have shows := (bucket.leads_fetchNamed name owner).outcome_of_run alone done
      obtain ⟨identity, _, fetched⟩ := Contents.objectNamed_eq_ok_iff.1 shows.eq_of_ok
      exact ⟨identity, fetched⟩
  | selected done member => exact among done member
  | answered done member => exact among (Bucket.fetchSelected_of_run done) member

/-- A course leaves what one of its objects wrote under an identity, or what was stored there
before. -/
theorem Course.untorn {identity : Uuid} {record : Bytes} (new : AreNew before objects)
    (course : Course bucket objects before count after)
    (found : after.records.get? identity.key = some record) :
    (∃ object ∈ objects.take count, object.isSealed = false ∧ object.identity = identity ∧
        after.Untorn object.entry) ∨
      (∃ record, before.records.get? identity.key = some record) ∧
        ∀ entry : Entry, entry.identity = identity → before.Untorn entry → after.Untorn entry := by
  have less : after.RecordsWithin before → after.PayloadsWithin before →
      (∃ record, before.records.get? identity.key = some record) ∧
        ∀ entry : Entry, entry.identity = identity → before.Untorn entry → after.Untorn entry := by
    intro records payloads
    refine ⟨⟨record, records _ _ found⟩, ?_⟩
    rintro entry rfl untorn
    exact untorn.within records payloads found
  cases course with
  | created created =>
      rcases created.indexed with ⟨_, rfl⟩ | ⟨storable, _, indexed⟩
      · exact .inr (less (fun _ _ held => held) fun _ _ held => held)
      by_cases stored : ∃ object ∈ objects.take count, object.identity = identity
      · obtain ⟨object, member, same⟩ := stored
        refine .inl ⟨object, member, ?_, same, indexed.untorn ?_ ?_⟩
        · exact (storable object (List.mem_of_mem_take member)).unsealed
        · rw [List.map_map]
          exact new.distinct
        · rw [← List.map_take]
          exact List.mem_map_of_mem member
      · right
        have held : before.records.get? identity.key = some record := by
          rw [indexed.get?_records, Contents.records_withPayloads] at found
          · exact found
          · rw [← List.map_take]
            refine List.forall_mem_map.2 fun object member same => stored ?_
            exact ⟨object, member, Uuid.key_injective same⟩
        refine ⟨⟨record, held⟩, ?_⟩
        rintro entry rfl untorn
        -- what is handed over unsealed has no record, so no content is written beside this one
        refine untorn.indexed (List.forall_mem_map.2 fun object member same => ?_) indexed
        have absent := new.unstored object member (storable object member).unsealed
        rw [show object.identity.key = entry.identity.key from same] at absent
        exact absurd (held.symm.trans absent) (by simp)
  | removed removals => exact .inr (less removals.recordsWithin removals.payloadsWithin)
  | repaired =>
      exact .inr (less (Contents.recordsWithin_reconciled before)
        (Contents.payloadsWithin_reconciled before))

namespace Workspace

/-- What is stored was written by one of the requests that were seen, each of which sealed
objects that are still at hand. -/
structure Traced (work : Workspace) (seen : List Exchange) : Prop where
  alone : work.store.hazard.IsAlone
  tidy : Tidy work.store.contents work.objects
  recorded : work.store.contents.Recorded
  held : ∀ object ∈ sealings seen, object.sealed ∈ work.objects
  once : ((sealings seen).map Object.identity).Nodup
  stored : ∀ (identity : Uuid) (record : Bytes),
    work.store.contents.records.get? identity.key = some record →
      ∃ object ∈ sealings seen, object.identity = identity ∧
        work.store.contents.Untorn object.entry

/-- What was sealed before and what is sealed now have different identities. -/
theorem Traced.nodup_sealings {handed : List Object} (traced : Traced ⟨store, objects⟩ seen)
    (held : objects.Perm (handed ++ rest)) (count : Nat) :
    ((sealings seen ++ (handed.take count).filter fun object => !object.isSealed).map
      Object.identity).Nodup := by
  have distinct : ((handed ++ rest).map Object.identity).Nodup :=
    (held.map Object.identity).nodup_iff.1 traced.tidy.distinct
  rw [List.map_append]
  apply List.Nodup.append traced.once
  · have first := distinct
    rw [← List.take_append_drop count handed, List.map_append, List.map_append] at first
    exact (List.Sublist.map _ List.filter_sublist).nodup first.of_append_left.of_append_left
  · rintro identity among again
    obtain ⟨object, member, rfl⟩ := List.mem_map.1 among
    obtain ⟨other, taken, same⟩ := List.mem_map.1 again
    obtain ⟨taken, unsealed⟩ := List.mem_filter.1 taken
    -- what was sealed before is at hand sealed, and no other object has its identity
    have given : other ∈ handed ++ rest := List.mem_append_left _ (List.mem_of_mem_take taken)
    have kept := held.mem_iff.1 (traced.held object member)
    obtain rfl := List.inj_on_of_nodup_map distinct given kept same
    exact absurd unsealed (by simp [Object.sealed])

/-- A request keeps what is stored traced. -/
theorem Traced.serve {request : Request} {reply : Reply} {after : Store}
    (traced : Traced ⟨store, objects⟩ seen) (held : objects.Perm (request.objects ++ rest))
    (done : (bucket.reply request).run store = (reply, after)) :
    Traced ⟨after, request.back reply ++ rest⟩
      (seen ++ [⟨request, reply, request.back reply, after.contents⟩]) := by
  have hold := Circumstances.hold_unreliable traced.alone
  obtain ⟨holdsAfter, serves⟩ := bucket.leads_serve request store hold rfl
  rw [Bucket.serve_eq, StateT.run_map, done] at holdsAfter serves
  replace serves : bucket.Serves request.objects store.contents (request.back reply)
    after.contents := serves
  have tidy := traced.tidy.perm held
  obtain ⟨count, course, back⟩ := id serves
  have sealed : sealings (seen ++ [⟨request, reply, request.back reply, after.contents⟩])
      = sealings seen ++ (request.objects.take count).filter fun object => !object.isSealed := by
    rw [sealings, List.flatMap_append, List.flatMap_singleton,
      @Exchange.sealings_of_taken count _ back]
    rfl
  have returned : ∀ object ∈ request.objects.take count, object.sealed ∈ request.back reply :=
    fun object member => back ▸ List.mem_append_left _ (List.mem_map_of_mem member)
  refine ⟨holdsAfter.alone, tidy.serve serves, ?_, ?_, ?_, ?_⟩
  · exact course.recorded tidy.areNew.made traced.recorded
  · rw [sealed]
    refine List.forall_mem_append.2 ⟨fun object member => ?_, fun object member => ?_⟩
    · rcases List.mem_append.1 (held.mem_iff.1 (traced.held object member)) with given | kept
      · exact List.mem_append_left _ (back ▸ Object.sealed_mem_back count given)
      · exact List.mem_append_right _ kept
    · exact List.mem_append_left _ (returned object (List.mem_filter.1 member).1)
  · rw [sealed]
    exact traced.nodup_sealings held count
  · intro identity record found
    rw [sealed]
    rcases course.untorn tidy.areNew found with ⟨object, taken, unsealed, same, untorn⟩ | earlier
    · refine ⟨object, List.mem_append_right _ (List.mem_filter.2 ⟨taken, ?_⟩), same, untorn⟩
      simp [unsealed]
    · obtain ⟨⟨record, before⟩, stays⟩ := earlier
      obtain ⟨object, member, same, untorn⟩ := traced.stored identity record before
      exact ⟨object, List.mem_append_left _ member, same, stays _ same untorn⟩

/-- What is stored is traced throughout every run from empty contents. -/
theorem Followed.traced (alone : start.hazard.IsAlone) (empty : start.contents = {})
    (followed : Followed bucket start work seen) : Traced work seen := by
  induction followed with
  | start =>
      have none : ∀ key, start.contents.records.get? key = none := by
        rw [empty]
        exact fun _ => rfl
      exact {
        alone
        tidy := ⟨by simp, .nil, by simp, fun _ _ => none _⟩
        recorded := empty ▸ Contents.consistent_empty.recorded
        held := by simp [sealings]
        once := .nil
        stored := fun identity record found => absurd (found.symm.trans (none _)) (by simp) }
  | make _ fresh fits inductionHypothesis =>
      exact { inductionHypothesis with
        tidy := inductionHypothesis.tidy.make fresh fits
        held := fun object member =>
          List.mem_cons_of_mem _ (inductionHypothesis.held object member) }
  | change _ change fits inductionHypothesis =>
      have tidy := (inductionHypothesis.tidy.perm List.perm_middle).change change fits
      refine { inductionHypothesis with
        tidy := tidy.perm List.perm_middle.symm
        held := fun object member => List.perm_middle.mem_iff.2 ?_ }
      rcases List.mem_cons.1 (List.perm_middle.mem_iff.1 (inductionHypothesis.held object member))
        with rfl | kept
      · exact List.mem_cons.2 (.inl (change.eq_of_sealed rfl).symm)
      · exact List.mem_cons_of_mem _ kept
  | serve _ request held done inductionHypothesis => exact inductionHypothesis.serve held done
  | arrange _ hazard alone inductionHypothesis => exact { inductionHypothesis with alone := alone }

/-- What is found under an identity is as it was sealed, and has this identity. -/
theorem Traced.sealed_of_objectOf (traced : Traced work seen) {identity : Uuid}
    (found : work.store.contents.objectOf identity = .ok object) :
    object.identity = identity ∧ ∃ origin ∈ sealings seen, object = origin.sealed := by
  obtain ⟨metadata, payload, read, paid, restored⟩ := Contents.objectOf_eq_ok_iff.1 found
  obtain ⟨_, _, describes, _⟩ := traced.recorded.describes read
  obtain rfl := Except.ok.inj (restored.symm.trans (Object.restore_of_describes describes payload))
  obtain ⟨record, held, decoded⟩ := Contents.metadataOf_eq_ok_iff.1 read
  obtain ⟨origin, member, rfl, untorn⟩ := traced.stored identity record held
  obtain rfl := untorn.payload payload paid
  obtain rfl := Option.some.inj (held.symm.trans untorn.record)
  have fits := (traced.tidy.made _ (traced.held origin member)).fits
  obtain rfl := Except.ok.inj (decoded.symm.trans (Metadata.decode_encode fits))
  exact ⟨rfl, origin, member, rfl⟩

/-- Along every run, in either mode and whatever calls are refused, an object that is given is
as one request sealed it, and no other request sealed an object of its identity. What is
fetched by an identity has this identity, and an object that no request sealed is not given. -/
theorem given_as_sealed (alone : start.hazard.IsAlone) (empty : start.contents = {})
    (followed : Followed bucket start work seen) :
    (∀ found, bucket.Gives work.store found →
      ∃ front exchange back object, seen = front ++ exchange :: back ∧
        object ∈ exchange.sealings ∧ found = object.sealed ∧
        ∀ other ∈ front ++ back, ∀ again ∈ other.sealings, again.identity ≠ object.identity) ∧
    (∀ identity found, ((bucket.fetch identity).run.run work.store).1 = .ok found →
      found.identity = identity) ∧
    ∀ identity, (∀ exchange ∈ seen, ∀ object ∈ exchange.sealings, object.identity ≠ identity) →
      ∀ found, bucket.Gives work.store found → found.identity ≠ identity := by
  have traced := followed.traced alone empty
  have origin : ∀ found, bucket.Gives work.store found →
      ∃ object ∈ sealings seen, found = object.sealed := by
    intro found gives
    obtain ⟨identity, fetched⟩ := gives.objectOf traced.alone
    exact (traced.sealed_of_objectOf fetched).2
  refine ⟨fun found gives => ?_, fun identity found done => ?_, ?_⟩
  · obtain ⟨object, member, same⟩ := origin found gives
    obtain ⟨exchange, among, sealed⟩ := List.mem_flatMap.1 member
    obtain ⟨front, back, rfl⟩ := List.append_of_mem among
    refine ⟨front, exchange, back, object, rfl, sealed, same, fun other elsewhere again taken => ?_⟩
    have once := ((List.perm_middle.flatMap_right Exchange.sealings).map _).nodup_iff.1 traced.once
    rw [List.flatMap_cons, List.map_append] at once
    have later : again ∈ (front ++ back).flatMap Exchange.sealings :=
      List.mem_flatMap.2 ⟨other, elsewhere, taken⟩
    intro shared
    refine List.disjoint_of_nodup_append once (List.mem_map_of_mem sealed) ?_
    exact shared ▸ List.mem_map_of_mem later
  · have shows := (bucket.leads_fetch identity).outcome_of_run traced.alone done
    exact (traced.sealed_of_objectOf shows.eq_of_ok).1
  · rintro identity unsealed found gives rfl
    obtain ⟨object, member, rfl⟩ := origin found gives
    obtain ⟨exchange, among, sealed⟩ := List.mem_flatMap.1 member
    exact unsealed exchange among object sealed rfl

/-- The run in which storing a report is given up half-way, and the report is renamed, gets
content and is stored. What is fetched is the report as it was then. -/
theorem renamed_report_given_as_sealed :
    let first := (Bucket.stepwise.reply (.create Object.report)).run
      { hazard := .gated [(.commit, 2)] }
    let second := (Bucket.stepwise.reply (.create Object.renamedReport)).run first.2
    let seen : List Exchange :=
      [⟨.create Object.report, first.1, [Object.report], first.2.contents⟩,
        ⟨.create Object.renamedReport, second.1, [Object.renamedReport.sealed],
          second.2.contents⟩]
    first.2.contents.sizes = [1, 1, 0] ∧
      ((Bucket.stepwise.fetch Object.report.identity).run.run second.2).1
        = .ok Object.renamedReport.sealed ∧
      ∃ front exchange back object, seen = front ++ exchange :: back ∧
        object ∈ exchange.sealings ∧ Object.renamedReport.sealed = object.sealed ∧
        ∀ other ∈ front ++ back, ∀ again ∈ other.sealings, again.identity ≠ object.identity := by
  intro first second seen
  have refused : Request.back (.create Object.report) first.1 = [Object.report] := by
    decide +kernel
  have stored : Request.back (.create Object.renamedReport) second.1
      = [Object.renamedReport.sealed] := by decide +kernel
  have done : ((Bucket.stepwise.fetch Object.report.identity).run.run second.2).1
      = .ok Object.renamedReport.sealed := by decide +kernel
  have made : Followed Bucket.stepwise {} ⟨{}, [Object.report]⟩ [] :=
    .make .start List.not_mem_nil Object.made_report.fits
  have givenUp : Followed Bucket.stepwise {} ⟨first.2, [Object.report]⟩ [seen[0]] := by
    have served := Followed.serve (.arrange made (.gated [(.commit, 2)]) trivial)
      (.create Object.report) (.refl _) (show _ = (first.1, first.2) from rfl)
    rwa [refused] at served
  have fits := Object.made_renamedReport.fits
  have titled := @Followed.change _ _ first.2 [] [] _ _ _ givenUp Object.change_report fits
  have renamed := @Followed.change _ _ first.2 [] [] _ _ _ titled Object.change_renamedReport fits
  have followed : Followed Bucket.stepwise {} ⟨second.2, [Object.renamedReport.sealed]⟩ seen := by
    have served := Followed.serve renamed (.create Object.renamedReport) (.refl _)
      (show _ = (second.1, second.2) from rfl)
    rwa [stored] at served
  exact ⟨by decide +kernel, done,
    (@given_as_sealed Bucket.stepwise _ {} _ trivial rfl followed).1 _ (.fetched done)⟩

end Workspace

end Depot
