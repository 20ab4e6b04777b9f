import Depot.Proofs.Bucket.Engines
import Depot.Proofs.Consistency.Usability

/-!
# Where no call is refused

A bucket on an engine that refuses no call gives what the contents alone decide, whatever rule the
engine has for keys: looks give what they show, and an object whose metadata is there is removed.
-/

namespace Depot

namespace Bucket

variable {store : Store} {bucket : Bucket} {identity : Uuid} {metadata : Metadata}
  {name owner : String}

theorem fetchNamed_of_calm (calm : store.hazard = .none) (name owner : String) :
    ((bucket.fetchNamed name owner).run.run store).1 = store.contents.objectNamed name owner :=
  (leads_fetchNamed name owner).value_of_calm calm

theorem fetchSelected_of_calm (calm : store.hazard = .none) (selection : Selection) :
    ((bucket.fetchSelected selection).run.run store).1
      = store.contents.objectsSelected selection :=
  (bucket.leads_fetchSelected selection).value_of_calm calm

/-- An object whose metadata is there is removed, and otherwise nothing is. -/
theorem delete_of_calm (calm : store.hazard = .none) (identity : Uuid) :
    match store.contents.metadataOf identity with
    | .ok metadata => ((bucket.delete identity).run.run store).1 = .ok () ∧
        ((bucket.delete identity).run.run store).2.contents
          = store.contents.without identity metadata
    | .error error => ((bucket.delete identity).run.run store).1 = .error error ∧
        ((bucket.delete identity).run.run store).2.contents = store.contents :=
  ((abides_delete identity).outcome_of_run (calm ▸ Hazard.isQuiet_none)
    (leads_delete_inMemory identity)).1

theorem delete_of_found (calm : store.hazard = .none)
    (found : store.contents.metadataOf identity = .ok metadata) :
    ((bucket.delete identity).run.run store).1 = .ok () ∧
      ((bucket.delete identity).run.run store).2.contents
        = store.contents.without identity metadata := by
  have removed := bucket.delete_of_calm calm identity
  rwa [found] at removed

/-- A name that leads to an object is as good as its identity. -/
theorem deleteNamed_of_found (calm : store.hazard = .none)
    (leadsTo : store.contents.resolved name owner = .ok identity)
    (found : store.contents.metadataOf identity = .ok metadata) :
    ((bucket.deleteNamed name owner).run.run store).1 = .ok () ∧
      ((bucket.deleteNamed name owner).run.run store).2.contents
        = store.contents.without identity metadata := by
  have removes : Leads (.reliable .unrestricted) (bucket.deleteNamed name owner).run
      store.contents fun result after =>
        result = .ok () ∧ after = store.contents.without identity metadata := by
    refine Leads.follow (leads_resolve name owner) ?_ ?_
    · rintro error _ ⟨_, shown | ⟨refused, _⟩⟩
      · exact absurd (shown.trans leadsTo) (by simp)
      · exact refused.elim
    · rintro other between shows
      obtain rfl := Except.ok.inj (shows.eq_of_ok.symm.trans leadsTo)
      obtain rfl := shows.1
      have removed := @leads_delete_inMemory bucket store.contents other
      rwa [found] at removed
  exact ((abides_deleteNamed name owner).outcome_of_run (calm ▸ Hazard.isQuiet_none) removes).1

/-- Creations keep the circumstances. -/
theorem hold_of_create (calm : store.hazard = .none) (object : Object) :
    (Circumstances.reliable store.keyRule).Hold ((bucket.create object).run.run store).2 :=
  ((@leads_create _ _ bucket object).outcome_of_calm calm).2

theorem hold_of_createBatch (calm : store.hazard = .none) (objects : List Object) :
    (Circumstances.reliable store.keyRule).Hold ((bucket.createBatch objects).run store).2 :=
  ((@leads_createBatch _ _ bucket objects).outcome_of_calm calm).2

end Bucket

end Depot
