import Depot.Proofs.Bucket.Identities
import Depot.Proofs.Consistency.Names
import Depot.Proofs.Runs.Atomic

/-!
# Objects at hand

Objects are made with identities of their own, changed, handed over with requests and
taken back, and never copied. What is at hand and what is stored then belong together: an
unsealed object is not stored, and what is stored belongs to an object at hand. Along such
runs a name never leads to an object of another name or owner, provided that in the
independent mode no object is stored while a name that is not its own still leads to it.
A renamed object whose storing was given up half-way is such an object, until a
reconciliation takes away what is left of the attempt.
-/

namespace Depot

/-- A store and the objects at hand. -/
structure Workspace where
  store : Store
  /-- The objects that were made, as they are now. -/
  objects : List Object

/-- No name but its own leads to the identity of an unsealed one of the objects. -/
def AreUnmoved (contents : Contents) (objects : List Object) : Prop :=
  ∀ object ∈ objects, object.isSealed = false →
    ∀ key, contents.names.get? key = some object.identity.key → key = object.entry.nameKey

/-- It is enough to look at the names that there are. -/
theorem areUnmoved_iff {contents : Contents} {objects : List Object} :
    AreUnmoved contents objects ↔ ∀ object ∈ objects, object.isSealed = false →
      ∀ entry ∈ contents.names.entries, entry.2 = object.identity.key →
        entry.1 = object.entry.nameKey := by
  constructor
  · intro unmoved object member unsealed entry listed same
    have found := (contents.names.mem_entries_iff entry.1 entry.2).1 listed
    rw [same] at found
    exact unmoved object member unsealed entry.1 found
  · intro own object member unsealed key found
    have listed := (contents.names.mem_entries_iff key object.identity.key).2 found
    exact own object member unsealed (key, object.identity.key) listed (by dsimp only)

instance (contents : Contents) (objects : List Object) : Decidable (AreUnmoved contents objects) :=
  decidable_of_iff (∀ object ∈ objects, object.isSealed = false →
    ∀ entry ∈ contents.names.entries, entry.2 = object.identity.key →
      entry.1 = object.entry.nameKey) areUnmoved_iff.symm

namespace Workspace

/-- What can be reached from a store with nothing at hand by making objects, changing them
and handing them over with admissible requests. -/
inductive Reached (bucket : Bucket) (admissible : Contents → List Object → Prop) (start : Store) :
    Workspace → Prop where
  | start : Reached bucket admissible start ⟨start, []⟩
  | make {store : Store} {objects : List Object} {identity owner : Uuid} {name : String}
      {now : Instant} (prior : Reached bucket admissible start ⟨store, objects⟩)
      (fresh : identity ∉ objects.map Object.identity)
      (fits : (Object.make identity owner name now).metadata.FitsWords) :
      Reached bucket admissible start ⟨store, Object.make identity owner name now :: objects⟩
  | change {store : Store} {front back : List Object} {object after : Object}
      (prior : Reached bucket admissible start ⟨store, front ++ object :: back⟩)
      (change : object.Change after) (fits : after.metadata.FitsWords) :
      Reached bucket admissible start ⟨store, front ++ after :: back⟩
  | serve {store : Store} {objects rest : List Object}
      (prior : Reached bucket admissible start ⟨store, objects⟩) (request : Request)
      (held : objects.Perm (request.objects ++ rest))
      (may : admissible store.contents request.objects) :
      Reached bucket admissible start
        ⟨((bucket.serve request).run store).2, ((bucket.serve request).run store).1 ++ rest⟩
  | arrange {store : Store} {objects : List Object}
      (prior : Reached bucket admissible start ⟨store, objects⟩) (hazard : Hazard)
      (alone : hazard.IsAlone) : Reached bucket admissible start ⟨{ store with hazard }, objects⟩

/-- Objects at hand and what is stored belong together: an unsealed object has no record, and
what has a record is at hand. -/
structure Tidy (contents : Contents) (objects : List Object) : Prop where
  made : ∀ object ∈ objects, object.Made
  distinct : (objects.map Object.identity).Nodup
  unstored : ∀ object ∈ objects, object.isSealed = false →
    contents.records.get? object.identity.key = none
  known : ∀ identity : Uuid, identity ∉ objects.map Object.identity →
    contents.records.get? identity.key = none

namespace Tidy

variable {contents after : Contents} {objects others : List Object}

/-- The order of the objects does not matter. -/
theorem perm (tidy : Tidy contents objects) (same : objects.Perm others) :
    Tidy contents others where
  made object member := tidy.made object (same.mem_iff.2 member)
  distinct := (same.map _).nodup_iff.1 tidy.distinct
  unstored object member := tidy.unstored object (same.mem_iff.2 member)
  known identity absent := tidy.known identity fun member =>
    absent ((same.map _).mem_iff.1 member)

/-- A new object of a new identity comes to hand. -/
theorem make {identity owner : Uuid} {name : String} {now : Instant} (tidy : Tidy contents objects)
    (fresh : identity ∉ objects.map Object.identity)
    (fits : (Object.make identity owner name now).metadata.FitsWords) :
    Tidy contents (Object.make identity owner name now :: objects) where
  made := List.forall_mem_cons.2 ⟨.make fits, tidy.made⟩
  distinct := List.nodup_cons.2 ⟨fresh, tidy.distinct⟩
  unstored := List.forall_mem_cons.2 ⟨fun _ => tidy.known identity fresh, tidy.unstored⟩
  known other absent := tidy.known other fun member => absent (List.mem_cons_of_mem _ member)

/-- An object is replaced by what a change made of it. -/
theorem change {object changed : Object} (tidy : Tidy contents (object :: objects))
    (change : object.Change changed) (fits : changed.metadata.FitsWords) :
    Tidy contents (changed :: objects) := by
  obtain ⟨made, madeRest⟩ := List.forall_mem_cons.1 tidy.made
  obtain ⟨unstored, unstoredRest⟩ := List.forall_mem_cons.1 tidy.unstored
  have identities : (changed :: objects).map Object.identity
      = (object :: objects).map Object.identity := by
    rw [List.map_cons, List.map_cons, change.identity_eq]
  refine ⟨?_, ?_, ?_, ?_⟩
  · exact List.forall_mem_cons.2 ⟨.change made change fits, madeRest⟩
  · rw [identities]
    exact tidy.distinct
  · refine List.forall_mem_cons.2 ⟨fun unsealed => ?_, unstoredRest⟩
    rw [change.identity_eq]
    exact unstored (change.unsealed unsealed)
  · rw [identities]
    exact tidy.known

end Tidy

end Workspace

/-- A course writes records only for the objects that it stores. -/
theorem Course.get?_records {bucket : Bucket} {before after : Contents} {objects : List Object}
    {count : Nat} (course : Course bucket objects before count after) {identity : Uuid}
    (absent : before.records.get? identity.key = none)
    (others : identity ∉ (objects.take count).map Object.identity) :
    after.records.get? identity.key = none := by
  rcases course.within_or_indexed with within | ⟨_, _, indexed⟩
  · exact within.get?_eq_none absent
  · rw [indexed.get?_records, Contents.records_withPayloads]
    · exact absent
    · rw [← List.map_take]
      refine List.forall_mem_map.2 fun object member same => others ?_
      exact List.mem_map.2 ⟨object, member, Uuid.key_injective same⟩

/-- Objects given back have the identities of those handed over. -/
theorem map_identity_sealed (objects : List Object) (count : Nat) :
    ((objects.take count).map Object.sealed ++ objects.drop count).map Object.identity
      = objects.map Object.identity := by
  have kept : Object.identity ∘ Object.sealed = Object.identity := rfl
  rw [List.map_append, List.map_map, kept, ← List.map_append, List.take_append_drop]

namespace Workspace

/-- What is at hand and what is stored still belong together after a request. -/
theorem Tidy.serve {bucket : Bucket} {before after : Contents} {objects back rest : List Object}
    (tidy : Tidy before (objects ++ rest)) (serves : bucket.Serves objects before back after) :
    Tidy after (back ++ rest) := by
  obtain ⟨count, course, rfl⟩ := serves
  have identities : (((objects.take count).map Object.sealed ++ objects.drop count) ++ rest).map
      Object.identity = (objects ++ rest).map Object.identity := by
    rw [List.map_append, map_identity_sealed, List.map_append]
  have split : (objects.take count).map Object.identity ++ (objects.drop count ++ rest).map
      Object.identity = (objects ++ rest).map Object.identity := by
    rw [← List.map_append, ← List.append_assoc, List.take_append_drop]
  -- so what stays unsealed has none of the identities that are stored now
  have apart := List.disjoint_of_nodup_append (split ▸ tidy.distinct)
  have among : ∀ object ∈ objects.drop count ++ rest, object ∈ objects ++ rest := by
    intro object member
    rcases List.mem_append.1 member with dropped | later
    · exact List.mem_append_left _ (List.mem_of_mem_drop dropped)
    · exact List.mem_append_right _ later
  refine ⟨?_, identities ▸ tidy.distinct, ?_, ?_⟩
  · rw [List.append_assoc]
    refine List.forall_mem_append.2 ⟨List.forall_mem_map.2 fun object member => ?_, ?_⟩
    · have made := tidy.made object (List.mem_append_left _ (List.mem_of_mem_take member))
      exact .change made .sealing made.fits
    · exact fun object member => tidy.made object (among object member)
  · rw [List.append_assoc]
    refine List.forall_mem_append.2 ⟨List.forall_mem_map.2 fun object _ unsealed => ?_, ?_⟩
    · exact absurd unsealed (by simp [Object.sealed])
    · intro object member unsealed
      have absent := tidy.unstored object (among object member) unsealed
      exact course.get?_records absent fun stored => apart stored (List.mem_map_of_mem member)
  · rw [identities]
    intro identity absent
    refine course.get?_records (tidy.known identity absent) fun member => absent ?_
    rw [← split]
    exact List.mem_append_left _ member

end Workspace

/-- Every course keeps names truthful, if no other name leads to an unsealed object that is
handed over. -/
theorem Course.truthful {bucket : Bucket} {before after : Contents} {objects : List Object}
    {count : Nat} (course : Course bucket objects before count after) (truthful : before.Truthful)
    (new : AreNew before objects) (unmoved : AreUnmoved before objects) : after.Truthful := by
  cases course with
  | created created =>
      rcases created.indexed with ⟨_, rfl⟩ | ⟨storable, _, indexed⟩
      · exact truthful
      · have sound := sound_of_storable new.made storable
        refine (truthful.withPayloads _).indexed sound ?_ ?_ indexed
        · refine List.forall_mem_map.2 fun object member => ⟨?_, ?_⟩
          · rw [Contents.records_withPayloads]
            exact new.unstored object member (storable object member).unsealed
          · rw [Contents.names_withPayloads]
            exact unmoved object member (storable object member).unsealed
        · rw [List.map_map]
          exact new.distinct
  | removed removals => exact truthful.removals removals
  | repaired => exact truthful.recorded.settled.truthful

/-- Consistent contents have names for stored objects only. -/
theorem Contents.Consistent.areUnmoved {contents : Contents} {objects : List Object}
    (consistent : contents.Consistent) (new : AreNew contents objects) :
    AreUnmoved contents objects := by
  intro object member unsealed key found
  obtain ⟨identity, _, _, ⟨record, held, _⟩, _, same⟩ := (consistent.named _ _).1 found
  rw [same] at held
  exact absurd (held.symm.trans (new.unstored object member unsealed)) (by simp)

namespace Workspace

/-- Objects handed over from what is at hand are new. -/
theorem Tidy.areNew {contents : Contents} {objects rest : List Object}
    (tidy : Tidy contents (objects ++ rest)) : AreNew contents objects where
  made object member := tidy.made object (List.mem_append_left _ member)
  unstored object member := tidy.unstored object (List.mem_append_left _ member)
  distinct := by
    have distinct := tidy.distinct
    rw [List.map_append] at distinct
    exact distinct.of_append_left

/-- In the independent mode, an unsealed object may be handed over only while no name but
its own leads to it. -/
def Careful (bucket : Bucket) (contents : Contents) (objects : List Object) : Prop :=
  bucket.settings.writeMode = .atomic ∨ AreUnmoved contents objects

/-- What holds throughout a careful run. -/
structure Sound (bucket : Bucket) (work : Workspace) : Prop where
  alone : work.store.hazard.IsAlone
  tidy : Tidy work.store.contents work.objects
  truthful : work.store.contents.Truthful
  consistent : bucket.settings.writeMode = .atomic → work.store.contents.Consistent

variable {bucket : Bucket} {start : Store} {work : Workspace}

/-- A request keeps what holds throughout careful runs. -/
theorem Sound.serve {store : Store} {objects rest : List Object} {request : Request}
    (sound : Sound bucket ⟨store, objects⟩) (held : objects.Perm (request.objects ++ rest))
    (may : Careful bucket store.contents request.objects) :
    Sound bucket ⟨((bucket.serve request).run store).2,
      ((bucket.serve request).run store).1 ++ rest⟩ := by
  have hold := Circumstances.hold_unreliable sound.alone
  obtain ⟨holdsAfter, serves⟩ := bucket.leads_serve request store hold rfl
  have tidy := sound.tidy.perm held
  have new := tidy.areNew
  have unmoved : AreUnmoved store.contents request.objects := by
    rcases may with atomic | unmoved
    · exact (sound.consistent atomic).areUnmoved new
    · exact unmoved
  obtain ⟨count, course, back⟩ := id serves
  exact {
    alone := holdsAfter.alone
    tidy := tidy.serve serves
    truthful := course.truthful sound.truthful new unmoved
    consistent := fun atomic => course.consistent atomic new (sound.consistent atomic) }

/-- What holds throughout careful runs from empty contents. -/
theorem Reached.sound (alone : start.hazard.IsAlone) (empty : start.contents = {})
    (reached : Reached bucket (Careful bucket) start work) : Sound bucket work := by
  induction reached with
  | start =>
      have consistent : start.contents.Consistent := empty ▸ Contents.consistent_empty
      refine ⟨alone, ⟨by simp, .nil, by simp, fun _ _ => ?_⟩, ?_, fun _ => consistent⟩
      · rw [empty]
        rfl
      · exact (Contents.consistent_iff_settled.1 consistent).1.truthful
  | make _ fresh fits inductionHypothesis =>
      exact { inductionHypothesis with tidy := inductionHypothesis.tidy.make fresh fits }
  | change _ change fits inductionHypothesis =>
      have tidy := (inductionHypothesis.tidy.perm List.perm_middle).change change fits
      exact { inductionHypothesis with tidy := tidy.perm List.perm_middle.symm }
  | serve _ request held may inductionHypothesis => exact inductionHypothesis.serve held may
  | arrange _ hazard alone inductionHypothesis =>
      exact { inductionHypothesis with alone := alone }

/-- Along a careful run, the object that is fetched by a name has this name and the canonical
owner, and a deletion by a name that is reported as done drops a stored object of this name and
owner: its three entries are gone, and nothing else has changed. -/
theorem named_in_careful_run (alone : start.hazard.IsAlone) (empty : start.contents = {})
    (reached : Reached bucket (Careful bucket) start work) (name owner : String) :
    (∀ object, ((bucket.fetchNamed name owner).run.run work.store).1 = .ok object →
      object.name = name ∧ object.owner = Uuid.canonicalise owner) ∧
    (((bucket.deleteNamed name owner).run.run work.store).1 = .ok () →
      ∃ identity identifier, identifier.toText = Uuid.canonicalise owner ∧
        work.store.contents.Drops identity name identifier
          ((bucket.deleteNamed name owner).run.run work.store).2.contents) := by
  have sound := reached.sound alone empty
  constructor
  · intro object done
    have shows := (bucket.leads_fetchNamed name owner).outcome_of_run sound.alone done
    exact sound.truthful.name_of_objectNamed shows.eq_of_ok
  · intro done
    have removed := (bucket.leads_deleteNamed name owner).outcome_of_run sound.alone done
    obtain ⟨identity, metadata, leads, found, left⟩ := removed
    obtain ⟨identifier, canonical, describes, stored, led⟩ :=
      sound.truthful.stores_of_resolved leads found
    refine ⟨identity, identifier, canonical, ?_⟩
    rw [show ((bucket.deleteNamed name owner).run.run work.store).2.contents = _ from left]
    exact stored.drops_without describes led

/-- The store in which a report got its content and its name, but no record. -/
def unrecorded : Store :=
  ((Bucket.stepwise.serve (.create Object.report)).run { hazard := .gated [(.commit, 2)] }).2

section

variable {admissible : Contents → List Object → Prop}

/-- The report that has no record yet is still at hand as it was. -/
theorem reached_unrecorded (may : admissible {} [Object.report]) :
    Reached Bucket.stepwise admissible {} ⟨unrecorded, [Object.report]⟩ := by
  have made : Reached Bucket.stepwise admissible {} ⟨{}, [Object.report]⟩ :=
    .make .start List.not_mem_nil Object.made_report.fits
  have served := Reached.serve (.arrange made (.gated [(.commit, 2)]) trivial)
    (.create Object.report) (.refl _) may
  have kept : ((Bucket.stepwise.serve (.create Object.report)).run
      { hazard := .gated [(.commit, 2)] }).1 = [Object.report] := by decide +kernel
  rwa [kept] at served

/-- The report is renamed and gets other content. -/
theorem Reached.renamed {store : Store}
    (prior : Reached Bucket.stepwise admissible {} ⟨store, [Object.report]⟩) :
    Reached Bucket.stepwise admissible {} ⟨store, [Object.renamedReport]⟩ := by
  have fits := Object.made_renamedReport.fits
  have titled := @Reached.change _ _ {} store [] [] _ _ prior Object.change_report fits
  exact @Reached.change _ _ {} store [] [] _ _ titled Object.change_renamedReport fits

end

/-- A report's record is refused when its name is written already. Handing the report over again
is in vain, since the name is taken. After a reconciliation has taken the attempt away, the
report is renamed, stored and found by its new name. -/
theorem named_after_careful_retry :
    let bucket := Bucket.stepwise
    let owner := Object.report.owner
    let retried := (bucket.serve (.create Object.report)).run unrecorded
    let cleared := ((bucket.serve .reconcile).run retried.2).2
    let stored := ((bucket.serve (.create Object.renamedReport)).run cleared).2
    (unrecorded.contents.sizes = [1, 1, 0] ∧ retried.1 = [Object.report] ∧
      ((bucket.fetchNamed "summary" owner).run.run stored).1 = .ok Object.renamedReport.sealed ∧
      ((bucket.deleteNamed "summary" owner).run.run stored).1 = .ok () ∧
      ((bucket.deleteNamed "summary" owner).run.run stored).2.contents.sizes = [0, 0, 0]) ∧
    (∀ object, ((bucket.fetchNamed "summary" owner).run.run stored).1 = .ok object →
      object.name = "summary" ∧ object.owner = Uuid.canonicalise owner) ∧
    (((bucket.deleteNamed "summary" owner).run.run stored).1 = .ok () →
      ∃ identity identifier, identifier.toText = Uuid.canonicalise owner ∧
        stored.contents.Drops identity "summary" identifier
          ((bucket.deleteNamed "summary" owner).run.run stored).2.contents) := by
  intro bucket owner retried cleared stored
  have ran : unrecorded.contents.sizes = [1, 1, 0] ∧ retried.1 = [Object.report] ∧
      ((bucket.fetchNamed "summary" owner).run.run stored).1 = .ok Object.renamedReport.sealed ∧
      ((bucket.deleteNamed "summary" owner).run.run stored).1 = .ok () ∧
      ((bucket.deleteNamed "summary" owner).run.run stored).2.contents.sizes = [0, 0, 0] := by
    decide +kernel
  have first : Reached bucket (Careful bucket) {} ⟨unrecorded, [Object.report]⟩ :=
    reached_unrecorded (.inr (by decide +kernel))
  have again : Reached bucket (Careful bucket) {} ⟨retried.2, retried.1 ++ []⟩ :=
    first.serve (.create Object.report) (.refl _) (.inr (by decide +kernel))
  rw [ran.2.1] at again
  have freed : Reached bucket (Careful bucket) {} ⟨cleared, [Object.report]⟩ :=
    again.serve .reconcile (.refl _) (.inr (by decide +kernel))
  have reached : Reached bucket (Careful bucket) {} ⟨stored, _⟩ :=
    freed.renamed.serve (.create Object.renamedReport) (.refl _) (.inr (by decide +kernel))
  have named := @named_in_careful_run bucket {} _ trivial rfl reached "summary" owner
  -- what was computed is in the evaluated run; the store is not to be computed again
  clear_value stored
  exact ⟨ran, named⟩

/-- Care is needed: where a name that is not its own leads to an unsealed object that is then
stored, the object that is fetched by this name has another name or another owner. -/
theorem misled_of_moved {store : Store} {object stored : Object} {rest : List Object} {key : Bytes}
    (sound : Sound bucket ⟨store, object :: rest⟩)
    (leads : store.contents.names.get? key = some object.identity.key)
    (moved : key ≠ object.entry.nameKey)
    (done : ((bucket.create object).run.run store).1 = .ok stored) :
    ∃ name owner found,
      ((bucket.create object).run.run store).2.contents.objectNamed name owner = .ok found ∧
        ¬ (found.name = name ∧ found.owner = Uuid.canonicalise owner) := by
  obtain ⟨count, created, rfl, _⟩ := Bucket.leads_create.outcome_of_run sound.alone done
  have storable : object.Storable bucket.settings.requireContentType := by
    cases created with
    | written storable => exact storable object List.mem_cons_self
  obtain ⟨admits, left⟩ := @Contents.Created.all bucket _ _ [object] created
  obtain ⟨owner, canonical, metadata, read, describes⟩ :=
    Entry.sound (sound.tidy.made object List.mem_cons_self) storable
  obtain ⟨identity, otherName, otherOwner, short, claim, same, _⟩ := sound.truthful.named _ _ leads
  obtain rfl := Uuid.key_injective same
  let after := ((bucket.create object).run.run store).2.contents
  have content : after = store.contents.withEntries [object.entry] := left
  -- only free names are written, so the name still leads to the object
  have resolved : after.resolved otherName otherOwner.toText = .ok object.identity := by
    refine Contents.resolved_eq_ok_iff.2 ⟨otherOwner, object.identity.key, ?_, short, ?_, ?_⟩
    · exact Uuid.parse?_toText _
    · rw [content, claim]
      exact admits.get?_names leads
    · exact Uuid.ofKey_key _
  have fetched : after.objectOf object.identity
      = .ok ⟨object.identity, metadata, object.payload, true⟩ := by
    refine Contents.objectOf_eq_ok_iff.2 ⟨metadata, object.payload, ?_, ?_, ?_⟩
    · refine Contents.metadataOf_eq_ok_iff.2 ⟨object.entry.record, ?_, read⟩
      rw [content]
      exact OrderedMap.get?_insert_self _ _ _
    · rw [content]
      exact OrderedMap.get?_insert_self _ _ _
    · exact Object.restore_of_describes describes _
  refine ⟨otherName, otherOwner.toText, ⟨object.identity, metadata, object.payload, true⟩, ?_, ?_⟩
  · show (after.resolved otherName otherOwner.toText >>= after.objectOf) = _
    rw [resolved]
    exact fetched
  · rintro ⟨sameName, sameOwner⟩
    rw [Object.name, describes.hasName, Option.getD_some] at sameName
    rw [Object.owner, describes.hasOwner, Option.getD_some,
      Uuid.canonicalise_toText] at sameOwner
    refine moved ?_
    rw [← claim, Entry.nameKey, canonical, ← sameName, ← sameOwner]

/-- A report whose storing is given up half-way, renamed and stored again is fetched by the
name that it had. -/
theorem exists_careless_run_that_misleads :
    ∃ (bucket : Bucket) (work : Workspace) (name owner : String) (object : Object),
      bucket.settings.writeMode = .independent ∧ Reached bucket (fun _ _ => True) {} work ∧
        ((bucket.fetchNamed name owner).run.run work.store).1 = .ok object ∧
          object.name ≠ name := by
  have misled : ((Bucket.stepwise.fetchNamed "report" Object.report.owner).run.run
      ((Bucket.stepwise.serve (.create Object.renamedReport)).run unrecorded).2).1
        = .ok Object.renamedReport.sealed := by decide +kernel
  have renamed : Reached Bucket.stepwise (fun _ _ => True) {}
      ⟨unrecorded, [Object.renamedReport]⟩ := (reached_unrecorded trivial).renamed
  have stored := renamed.serve (.create Object.renamedReport) (.refl _) trivial
  exact ⟨Bucket.stepwise, _, "report", Object.report.owner, Object.renamedReport.sealed, rfl,
    stored, misled, by decide +kernel⟩

end Workspace

end Depot
