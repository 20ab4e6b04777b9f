import Depot.Bucket.Selecting
import Depot.Proofs.Bucket.Deletion
import Depot.Proofs.Metadata.Matching

/-!
# What selections do

The objects that a selection finds are shown. Deleting the selected objects is a sequence of
deletions, of which only the last can be cut short.
-/

namespace Depot

namespace Contents

/-- The identities that a selection selects. -/
def selected (contents : Contents) (selection : Selection) : Except StoreError (List Uuid) := do
  selection.validate.mapError .invalid
  (Bucket.matching selection contents.records.entries).mapError .undecodable

/-- The objects of identities, without those that are not there. -/
def objectsOf (contents : Contents) : List Uuid → Except StoreError (List Object)
  | [] => .ok []
  | identity :: rest =>
    match contents.objectOf identity with
    | .ok object => do return object :: (← contents.objectsOf rest)
    | .error error => if error.isNotFound then contents.objectsOf rest else .error error

/-- The selected objects. -/
def objectsSelected (contents : Contents) (selection : Selection) :
    Except StoreError (List Object) := do
  contents.objectsOf (← contents.selected selection)

/-- The identities that a selection selects, none if it cannot be run. -/
def matched (contents : Contents) (selection : Selection) : List Uuid :=
  (contents.selected selection).toOption.getD []

/-- The identities of the objects that are to be deleted when a selection is run. -/
def doomed (contents : Contents) (selection : Selection) : List Uuid :=
  match selection.purpose with
  | .fetch => []
  | .delete => contents.matched selection

/-- Objects that are fetched for identities are the objects of these. -/
theorem objectOf_of_mem_objectsOf {contents : Contents} {identities : List Uuid}
    {objects : List Object} {object : Object} (found : contents.objectsOf identities = .ok objects)
    (member : object ∈ objects) :
    ∃ identity ∈ identities, contents.objectOf identity = .ok object := by
  induction identities generalizing objects with
  | nil =>
      obtain rfl := Except.ok.inj found
      exact absurd member List.not_mem_nil
  | cons identity rest inductionHypothesis =>
      rw [objectsOf] at found
      split at found
      · rename_i first fetched
        obtain ⟨others, foundRest, same⟩ := bind_eq_ok_iff.1 found
        obtain rfl := Except.ok.inj same
        rcases List.mem_cons.1 member with rfl | later
        · exact ⟨identity, List.mem_cons_self, fetched⟩
        · obtain ⟨other, among, fetched⟩ := inductionHypothesis foundRest later
          exact ⟨other, List.mem_cons_of_mem _ among, fetched⟩
      · split at found
        · obtain ⟨other, among, fetched⟩ := inductionHypothesis found member
          exact ⟨other, List.mem_cons_of_mem _ among, fetched⟩
        · exact absurd found (by simp)

end Contents

namespace Bucket

variable {circumstances : Circumstances} {before : Contents} {bucket : Bucket}

theorem leads_select (selection : Selection) :
    Leads circumstances (bucket.select selection).run before
      (Shows circumstances before (before.selected selection)) := by
  refine Leads.thenShows (Leads.ofExcept (Shows.of_eq _)) fun _ _ => ?_
  exact Leads.scan Shows.refused (Leads.ofExcept (Shows.of_eq _))

theorem leads_fetchEach (identities : List Uuid) :
    Leads circumstances (bucket.fetchEach identities).run before
      (Shows circumstances before (before.objectsOf identities)) := by
  induction identities with
  | nil => exact Leads.give (Shows.of_eq _)
  | cons identity rest inductionHypothesis =>
      refine Leads.andThen (Leads.attempt ((leads_fetch identity).mono ?_))
      rintro result before ⟨rfl, same | ⟨may, reason, rfl⟩⟩
      · subst same
        unfold Contents.objectsOf
        cases before.objectOf identity with
        | ok object =>
            exact Leads.thenShows inductionHypothesis fun _ _ => Leads.give (Shows.of_eq _)
        | error error =>
            simp only [Leads.Continues]
            split
            · exact Leads.andThen (Leads.emit inductionHypothesis)
            · exact Leads.fail (Shows.of_eq _)
      · exact Leads.fail (Shows.refused may reason)

/-- Objects are fetched, and their number is reported. -/
theorem leads_fetchReported (identities : List Uuid) (connective : Connective) :
    Leads circumstances (do
        let objects ← bucket.fetchEach identities
        bucket.report (.selectionFetched objects.length connective)
        return objects : Session (List Object)).run before
      (Shows circumstances before (before.objectsOf identities)) := by
  rw [← bind_pure (before.objectsOf identities)]
  exact Leads.thenShows (leads_fetchEach identities) fun objects _ => leads_report_then objects

/-- The selected objects are shown. -/
theorem leads_fetchSelected (selection : Selection) :
    Leads circumstances (bucket.fetchSelected selection).run before
      (Shows circumstances before (before.objectsSelected selection)) :=
  Leads.thenShows (leads_select selection) fun identities _ =>
    leads_fetchReported identities selection.connective

/-- How deletions one by one end: they remove objects completely, up to the first that cannot
be removed. -/
def DeletesEach {α : Type} (bucket : Bucket) (before : Contents) (identities : List Uuid)
    (result : Except StoreError α) (after : Contents) : Prop :=
  match result with
  | .ok _ => before.Cleared identities after
  | .error _ => before.Pruned bucket.settings.writeMode identities after

theorem DeletesEach.pruned {α : Type} {identities : List Uuid} {result : Except StoreError α}
    {after : Contents} (deletes : bucket.DeletesEach before identities result after) :
    before.Pruned bucket.settings.writeMode identities after := by
  cases result with
  | ok => exact .of_cleared deletes
  | error => exact deletes

/-- What later deletions do counts from what the earlier ones left. -/
theorem DeletesEach.of_later {α : Type} {identities rest : List Uuid} {between after : Contents}
    {result : Except StoreError α} (within : rest ⊆ identities)
    (cleared : before.Cleared identities between)
    (deletes : bucket.DeletesEach between rest result after) :
    bucket.DeletesEach before identities result after := by
  cases result with
  | ok => exact cleared.trans (Contents.Cleared.mono deletes within)
  | error => exact Contents.Pruned.of_later cleared (Contents.Pruned.mono deletes within)

/-- What deleting objects one by one leads to. -/
theorem leads_deleteEach (identities : List Uuid) :
    Leads circumstances (bucket.deleteEach identities).run before
      (bucket.DeletesEach before identities) := by
  induction identities generalizing before with
  | nil => exact Leads.give .refl
  | cons identity rest inductionHypothesis =>
      have within : rest ⊆ identity :: rest := List.subset_cons_self identity rest
      refine Leads.andThen (Leads.attempt ((leads_delete identity).mono ?_))
      intro result between deletes
      cases result with
      | ok =>
          obtain ⟨metadata, found, rfl⟩ := deletes
          have cleared : before.Cleared (identity :: rest) (before.without identity metadata) :=
            .single ⟨identity, List.mem_cons_self, metadata, found, rfl⟩
          refine Leads.follow inductionHypothesis (fun _ _ => .of_later within cleared) ?_
          exact fun _ _ later => Leads.give (.of_later within cleared later)
      | error error =>
          simp only [Leads.Continues]
          split
          · rename_i missing
            have kept : between = before := by
              rcases deletes with same | ⟨present, _⟩
              · exact same
              · exact absurd (missing.symm.trans present) (by simp)
            rw [kept]
            refine Leads.andThen (Leads.emit (inductionHypothesis.mono fun _ _ later => ?_))
            exact .of_later within .refl later
          · exact Leads.fail (deletes.pruned.mono (by simp))

/-- What deleting the selected objects leads to. -/
theorem leads_deleteSelected (selection : Selection) :
    Leads circumstances (bucket.deleteSelected selection).run before
      (bucket.DeletesEach before (before.matched selection)) := by
  refine Leads.follow (leads_select selection) (fun _ _ shows => shows.1 ▸ .self _) ?_
  rintro identities _ shows
  have selected : before.matched selection = identities := by
    rw [Contents.matched, shows.eq_of_ok]
    rfl
  obtain rfl := shows.1
  rw [selected]
  refine Leads.follow (leads_deleteEach identities) (fun _ _ deletes => deletes) ?_
  exact fun _ _ deletes => Leads.andThen (Leads.emitIf (Leads.give deletes))

/-- Running a selection removes nothing but the selected objects, and none if it is for
fetching. -/
theorem leads_run (selection : Selection) :
    Leads circumstances (bucket.run selection).run before fun _ after =>
      before.Pruned bucket.settings.writeMode (before.doomed selection) after := by
  unfold run Contents.doomed
  cases selection.purpose with
  | fetch =>
      dsimp only
      rw [← bind_pure_comp]
      refine Leads.follow (leads_fetchSelected selection) (fun _ _ shows => shows.1 ▸ .self _) ?_
      exact fun _ _ shows => Leads.give (shows.1 ▸ .self _)
  | delete =>
      dsimp only
      rw [← bind_pure_comp]
      refine Leads.follow (leads_deleteSelected selection) (fun _ _ deletes => deletes.pruned) ?_
      exact fun _ _ deletes => Leads.give deletes.pruned

end Bucket

end Depot
