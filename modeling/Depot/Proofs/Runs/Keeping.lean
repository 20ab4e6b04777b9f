import Depot.Proofs.Bucket.Calm
import Depot.Proofs.Consistency.Keeping
import Depot.Proofs.Consistency.Selecting
import Depot.Proofs.Runs

/-!
# Objects that nothing targets

Once an object is stored for the first time it stays, in either mode and whatever calls are
refused, until it is asked to be removed or an object of the same identity is stored under
another name. Requests on other objects, also when they are cut short, and reconciliations
do not touch it: it is fetched as it was sealed, by its identity, by its name, and by every
selection that selects its metadata.
-/

namespace Depot

/-- A request asks for an object to be removed. -/
def Request.Removes (object : Object) : Request → Prop
  | .run selection => selection.purpose = .delete ∧ selection.selects object.metadata = true
  | .deleteSelected selection => selection.selects object.metadata = true
  | .delete identity => identity = object.identity
  | .deleteNamed name owner => name = object.name ∧ Uuid.canonicalise owner = object.owner
  | _ => False

/-- Objects that came about by the operations on objects. None that may be stored has the
identity of the given object, whatever is stored. -/
structure AreOthers (bucket : Bucket) (object : Object) (contents : Contents)
    (objects : List Object) : Prop where
  made : AreMade contents objects
  /-- Those that may be stored have other identities. -/
  others : ∀ handed ∈ objects, handed.Storable bucket.settings.requireContentType →
    handed.identity ≠ object.identity

/-- A request is not about an object. -/
structure Request.Spares (bucket : Bucket) (object : Object) (request : Request) : Prop where
  made : ∀ handed ∈ request.objects, handed.Made
  /-- If one that may be stored has the identity of the object, it has its name as well, so
  that the name is taken. -/
  others : ∀ handed ∈ request.objects, handed.Storable bucket.settings.requireContentType →
    handed.identity = object.identity → handed.name = object.name ∧ handed.owner = object.owner
  kept : ¬ request.Removes object

/-- The stores that a run of requests that are not about an object can reach from a start.
Between requests the hazard may become any of one writer. -/
inductive Sparing (bucket : Bucket) (object : Object) (start : Store) : Store → Prop where
  | start : Sparing bucket object start start
  | serve {store : Store} (prior : Sparing bucket object start store) (request : Request)
      (spares : request.Spares bucket object) :
      Sparing bucket object start ((bucket.serve request).run store).2
  | arrange {store : Store} (prior : Sparing bucket object start store) (hazard : Hazard)
      (alone : hazard.IsAlone) : Sparing bucket object start { store with hazard }

/-- An object is found in every way: by its identity, by its name under any spelling of the
owner, and once by every valid selection that selects its metadata. -/
structure Bucket.Finds (bucket : Bucket) (store : Store) (object : Object) : Prop where
  byIdentity : ((bucket.fetch object.identity).run.run store).1 = .ok object
  byName : ∀ owner, Uuid.canonicalise owner = object.owner →
    ((bucket.fetchNamed object.name owner).run.run store).1 = .ok object
  bySelection : ∀ selection : Selection, selection.validate = .ok () →
    ∃ objects, ((bucket.fetchSelected selection).run.run store).1 = .ok objects ∧
      objects.filter (fun found => found.identity = object.identity)
        = if selection.selects object.metadata then [object] else []

variable {bucket : Bucket} {before after : Contents} {start store : Store} {object : Object}
  {objects front back given : List Object} {request : Request} {count : Nat}

/-- Every course of a request with other objects leaves an identity unknown. -/
theorem Course.unknown (new : AreOthers bucket object before objects)
    (course : Course bucket objects before count after) (recorded : before.Recorded)
    (unknown : before.Unknown object.identity) : after.Unknown object.identity := by
  cases course with
  | created created =>
      rcases created.indexed with ⟨_, rfl⟩ | ⟨storable, _, indexed⟩
      · exact unknown
      · have apart : ∀ other ∈ objects.map Object.entry, other.identity ≠ object.identity :=
          List.forall_mem_map.2 fun other member => new.others other member (storable other member)
        exact (unknown.withPayloads _).indexed apart indexed
  | removed removals => exact unknown.removals removals
  | repaired => exact unknown.reconciled recorded

/-- Of objects that come back, the first of them sealed, one that was unsealed and comes back
sealed is among the first. -/
theorem lt_of_taken {index : Nat} (unsealed : object.isSealed = false)
    (handed : objects[index]? = some object)
    (taken : ((objects.take count).map Object.sealed ++ objects.drop count)[index]?
      = some object.sealed) : index < count := by
  refine Nat.lt_of_not_le fun fewer => ?_
  have within : index < objects.length := (List.getElem?_eq_some_iff.1 handed).1
  have size : ((objects.take count).map Object.sealed).length = count := by
    rw [List.length_map, List.length_take]
    omega
  rw [List.getElem?_append_right (size.trans_le fewer), size, List.getElem?_drop,
    Nat.add_sub_cancel' fewer, handed] at taken
  rw [Option.some.inj taken] at unsealed
  exact absurd unsealed (by simp [Object.sealed])

/-- An object of an unknown identity that is given back sealed is kept. -/
theorem Bucket.Fulfils.keeps (fulfils : bucket.Fulfils request before given after)
    (handed : request.objects = front ++ object :: back) (unsealed : object.isSealed = false)
    (taken : given[front.length]? = some object.sealed)
    (others : AreOthers bucket object before (front ++ back))
    (unknown : before.Unknown object.identity) :
    object.Storable bucket.settings.requireContentType ∧ after.Keeps object.entry := by
  obtain ⟨count, outcome, rfl⟩ := fulfils
  have reached : front.length < count := lt_of_taken unsealed (by simp [handed]) taken
  cases outcome with
  | pruned => exact absurd reached (Nat.not_lt_zero _)
  | repaired => exact absurd reached (Nat.not_lt_zero _)
  | created created =>
      rcases created.indexed with ⟨rfl, _⟩ | ⟨storable, _, indexed⟩
      · exact absurd reached (Nat.not_lt_zero _)
      · rw [handed] at storable indexed
        rw [List.map_append, List.map_cons] at indexed
        have apart : ∀ other ∈ front ++ back, other.identity ≠ object.identity := by
          intro other member
          refine others.others other member (storable other ?_)
          exact List.perm_middle.mem_iff.2 (List.mem_cons_of_mem _ member)
        refine ⟨storable object (by simp), ?_⟩
        refine (unknown.withPayloads _).keeps_of_indexed ?_ ?_ indexed (by simpa using reached)
        · refine Contents.get?_payloads_withPayloads (List.forall_mem_map.2 fun other later => ?_)
          exact apart other (List.mem_append_right _ later)
        · rw [← List.map_append]
          exact List.forall_mem_map.2 apart

/-- A request that spares an object that is kept is not to remove it. -/
theorem Request.Spares.not_mem_targets (spares : request.Spares bucket object)
    (keeps : before.Keeps object.entry) (recorded : before.Recorded) (made : object.Made)
    (sound : object.entry.Sound) : object.identity ∉ request.targets before := by
  have unmatched : ∀ {selection : Selection}, object.identity ∈ before.matched selection →
      selection.selects object.metadata = true := by
    intro selection member
    obtain ⟨metadata, found, selects⟩ := recorded.selects_of_mem_matched member
    rwa [Except.ok.inj (found.symm.trans (keeps.has.metadataOf made))] at selects
  intro member
  refine spares.kept ?_
  cases request with
  | run selection =>
      simp only [targets, Contents.doomed] at member
      cases purpose : selection.purpose with
      | fetch =>
          rw [purpose] at member
          exact absurd member List.not_mem_nil
      | delete =>
          rw [purpose] at member
          exact ⟨purpose, unmatched member⟩
  | deleteSelected selection => exact unmatched member
  | delete identity => exact (List.mem_singleton.1 member).symm
  | deleteNamed name owner =>
      cases resolved : before.resolved name owner with
      | error => simp [targets, resolved, Except.toOption] at member
      | ok identity =>
          simp only [targets, resolved, Except.toOption, Option.toList_some,
            List.mem_singleton] at member
          rw [← member] at resolved
          exact keeps.eq_of_resolved sound resolved
  | _ => exact absurd member List.not_mem_nil

/-- Every outcome of a request that spares an object keeps the object. -/
theorem Outcome.keeps (spares : request.Spares bucket object)
    (outcome : Outcome bucket before request count after) (recorded : before.Recorded)
    (made : object.Made) (sound : object.entry.Sound) (keeps : before.Keeps object.entry) :
    after.Keeps object.entry := by
  cases outcome with
  | created created =>
      rcases created.free with rfl | free
      · exact keeps
      rcases created.indexed with ⟨_, rfl⟩ | ⟨storable, _, indexed⟩
      · exact keeps
      -- a copy of the object would have its name, which is not free
      have apart : ∀ other ∈ request.objects.map Object.entry,
          other.identity ≠ object.entry.identity := by
        refine List.forall_mem_map.2 fun other member same => ?_
        obtain ⟨sameName, sameOwner⟩ := spares.others other member (storable other member) same
        have sameKey : other.entry.nameKey = object.entry.nameKey :=
          congrArg₂ nameKey sameName sameOwner
        exact absurd (keeps.name.symm.trans (sameKey ▸ free other member)) (by simp)
      exact (keeps.withPayloads apart).indexed apart indexed
  | pruned pruned => exact keeps.pruned (spares.not_mem_targets keeps recorded made sound) pruned
  | repaired => exact keeps.reconciled recorded sound

/-- Where no call is refused, an object whose entry is there is found in every way. -/
theorem Contents.Has.finds (calm : store.hazard = .none) (has : store.contents.Has object.entry)
    (recorded : store.contents.Recorded) (made : object.Made) (sound : object.entry.Sound) :
    bucket.Finds store object.sealed := by
  have found := has.objectOf made sound
  refine ⟨?_, fun owner spelled => ?_, fun selection valid => ?_⟩
  · exact ((bucket.leads_fetch object.identity).value_of_calm calm).trans found
  · refine (bucket.fetchNamed_of_calm calm object.name owner).trans ?_
    rw [objectNamed, has.resolved sound spelled]
    exact found
  · obtain ⟨objects, selected, single⟩ :=
      @Recorded.objectsSelected_ok _ _ object.sealed recorded valid found
    exact ⟨objects, (bucket.fetchSelected_of_calm calm selection).trans selected, single⟩

/-- A run of requests that spare an object keeps the object. -/
theorem Sparing.keeps {left : Store} (alone : store.hazard.IsAlone)
    (recorded : store.contents.Recorded) (made : object.Made) (sound : object.entry.Sound)
    (keeps : store.contents.Keeps object.entry) (sparing : Sparing bucket object store left) :
    left.hazard.IsAlone ∧ left.contents.Recorded ∧ left.contents.Keeps object.entry := by
  induction sparing with
  | start => exact ⟨alone, recorded, keeps⟩
  | @serve store prior request spares inductionHypothesis =>
      obtain ⟨alone, recorded, keeps⟩ := inductionHypothesis
      have hold := Circumstances.hold_unreliable alone
      obtain ⟨holdsAfter, count, outcome, _⟩ := bucket.leads_serve_fulfils request store hold rfl
      exact ⟨holdsAfter.alone, outcome.course.recorded spares.made recorded,
        outcome.keeps spares recorded made sound keeps⟩
  | arrange prior hazard alone inductionHypothesis => exact ⟨alone, inductionHypothesis.2⟩

end Depot
