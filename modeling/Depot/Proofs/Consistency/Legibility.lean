import Depot.Proofs.Bucket.Failures
import Depot.Proofs.Bucket.Streaming
import Depot.Proofs.Consistency.Names
import Depot.Proofs.Consistency.Selecting

/-!
# What is stored can be read

Contents are legible if every record is that of a stored object and every name leads to an
identity. Whatever is looked up in such contents can be read, so no look at them and no deletion
fails internally. Reconciliations do not even depend on it.
-/

namespace Depot

namespace Contents

/-- Whatever is stored can be read. -/
structure Legible (contents : Contents) : Prop where
  recorded : contents.Recorded
  named : contents.AllNames fun _ value => ∃ identity : Uuid, identity.key = value

variable {contents : Contents} {identity : Uuid} {selection : Selection}

theorem legible_empty : ({} : Contents).Legible where
  recorded := consistent_empty.recorded
  named _ _ found := absurd found (by simp)

/-- After a reconciliation every name leads to an identity. -/
theorem Recorded.named_reconciled (recorded : contents.Recorded) :
    (Reconciliation.reconciled contents).AllNames fun _ value =>
      ∃ identity : Uuid, identity.key = value := by
  intro key value found
  obtain ⟨identity, _, _, _, _, same⟩ := recorded.completes_of_get?_reconciled found
  exact ⟨identity, same⟩

/-- The record of a stored object stands under the key of an identity, can be read, and makes up
an object with any content. -/
theorem Recorded.readable (recorded : contents.Recorded) {key record : Bytes}
    (found : contents.records.get? key = some record) :
    ∃ identity metadata, Uuid.ofKey key = .ok identity ∧ Metadata.decode record = .ok metadata ∧
      ∀ payload, ∃ object, Object.restore metadata payload = .ok object := by
  obtain ⟨identity, name, owner, rfl, metadata, read, describes⟩ := recorded key record found
  exact ⟨identity, metadata, identity.ofKey_key, read, fun payload =>
    ⟨_, Object.restore_of_describes describes payload⟩⟩

/-! ## Looks -/

/-- The metadata of an identity is there and can be read, or it is missing. -/
theorem Recorded.accountable_metadataOf (recorded : contents.Recorded) (identity : Uuid) :
    Accountable (contents.metadataOf identity) := by
  refine Accountable.requiredThen id fun record found => ?_
  obtain ⟨_, metadata, _, read, _⟩ := recorded.readable found
  rw [read]
  trivial

theorem accountable_payloadOf (contents : Contents) (identity : Uuid) :
    Accountable (contents.payloadOf identity) := Accountable.required id _

theorem Recorded.accountable_objectOf (recorded : contents.Recorded) (identity : Uuid) :
    Accountable (contents.objectOf identity) := by
  obtain ⟨object, found, _⟩ | ⟨error, found, missing⟩ :=
    (recorded.recordedAt identity).objectOf_cases
  · rw [found]
    trivial
  · rw [found]
    exact StoreError.not_isInternal_of_isNotFound missing

theorem Recorded.accountable_readablePayloadOf (recorded : contents.Recorded) (identity : Uuid) :
    Accountable (contents.readablePayloadOf identity) :=
  Accountable.bind (recorded.accountable_metadataOf identity) fun _ _ =>
    contents.accountable_payloadOf identity

/-- What is delivered fails accountably, since a sink fails for reasons of its own. -/
theorem Recorded.accountable_delivered (recorded : contents.Recorded) (identity : Uuid)
    (sink : Sink) : Accountable (contents.delivered identity sink).result := by
  have readable := recorded.accountable_readablePayloadOf identity
  rw [delivered]
  cases read : contents.readablePayloadOf identity with
  | error error => rwa [read] at readable
  | ok content =>
      obtain ⟨_, stop, _, _, _, result⟩ := sink.exists_pours_deliver content
      show Accountable (sink.deliver content).result
      rw [result]
      cases stop with
      | some reason => exact id
      | none =>
          cases sink.flush with
          | error reason => exact id
          | ok => trivial

/-- A name leads to an identity, or it is missing. -/
theorem Legible.accountable_resolved (legible : contents.Legible) (name owner : String) :
    Accountable (contents.resolved name owner) := by
  refine Accountable.bind (Accountable.invalid _) fun canonical _ => ?_
  unfold identityOf
  split
  · exact id
  · refine Accountable.requiredThen id fun value found => ?_
    obtain ⟨identity, rfl⟩ := legible.named _ _ found
    rw [identity.ofKey_key]
    trivial

theorem Legible.accountable_objectNamed (legible : contents.Legible) (name owner : String) :
    Accountable (contents.objectNamed name owner) :=
  Accountable.bind (legible.accountable_resolved name owner) fun _ _ =>
    legible.recorded.accountable_objectOf _

/-- A selection selects something unless it is invalid. -/
theorem Recorded.accountable_selected (recorded : contents.Recorded) (selection : Selection) :
    Accountable (contents.selected selection) := by
  cases valid : selection.validate with
  | error cause =>
      rw [selected, valid]
      exact id
  | ok =>
      obtain ⟨identities, found, _⟩ := recorded.selected_ok valid
      rw [found]
      trivial

theorem Recorded.accountable_objectsSelected (recorded : contents.Recorded)
    (selection : Selection) : Accountable (contents.objectsSelected selection) := by
  refine Accountable.bind (recorded.accountable_selected selection) fun identities _ => ?_
  rw [objectsOf_eq fun identity _ => recorded.recordedAt identity]
  trivial

end Contents

/-! ## Operations -/

namespace Bucket

variable {circumstances : Circumstances} {before : Contents} {bucket : Bucket}

/-- A look fails accountably if what it shows is accountable. -/
theorem accountable_look {α : Type} {session : Session α} {value : Except StoreError α}
    (leads : Leads circumstances session.run before (Shows circumstances before value))
    (accountable : Accountable value) :
    Leads circumstances session.run before fun result _ => Accountable result :=
  leads.mono fun _ _ shows => shows.accountable accountable

theorem accountable_stream (recorded : before.Recorded) (identity : Uuid) (sink : Sink) :
    Leads circumstances (bucket.stream identity sink) before
      fun delivery _ => Accountable delivery.result := by
  refine (leads_stream_delivered identity sink).mono fun delivery _ delivers => ?_
  rcases delivers.2 with rfl | ⟨_, reason, rfl⟩
  · exact recorded.accountable_delivered identity sink
  · exact id

/-- Deleting an object fails because it is missing, or for the engine. -/
theorem accountable_delete (recorded : before.Recorded) (identity : Uuid) :
    Leads circumstances (bucket.delete identity).run before
      fun result _ => Accountable result := by
  have removal : ∀ (region : Region) (key : Bytes) (between : Contents),
      Leads circumstances (Session.commit (Batch.empty.delete region key)).run between
        fun result _ => Accountable result :=
    fun region key between => Leads.commitAccountable (by simp [Batch.delete, Batch.empty])
  have reported : ∀ between : Contents,
      Leads circumstances (bucket.report (.objectDeleted identity)).run between
        fun result _ => Accountable result := fun _ => Leads.emitIf trivial
  refine Leads.thenAccountable (accountable_look (leads_metadata identity)
    (recorded.accountable_metadataOf identity)) fun metadata between => ?_
  refine Leads.follow (leads_nameRemoval identity metadata)
    (fun _ _ shows => shows.accountable trivial) ?_
  rintro names _ shows
  obtain rfl := Except.ok.inj shows.eq_of_ok
  obtain rfl := shows.1.symm
  have sure : ∀ region key value,
      .putNew region key value ∉ (between.nameRemoval identity metadata).writes := by
    intro region key value member
    obtain ⟨_, _, same⟩ := eq_delete_of_mem_nameRemoval member
    exact absurd same (by simp)
  cases bucket.settings.writeMode with
  | atomic =>
      refine Leads.thenAccountable (Leads.commitAccountable ?_) fun _ _ => reported _
      simpa [Batch.extend, Batch.delete, Batch.empty] using sure
  | independent =>
      have rest : ∀ between : Contents, Leads circumstances (do
          Session.commit (Batch.empty.delete .payload identity.key)
          Session.commit (Batch.empty.delete .metadata identity.key)
          bucket.report (.objectDeleted identity) : Session Unit).run between
          fun result _ => Accountable result := fun between =>
        Leads.thenAccountable (removal _ _ between) fun _ _ =>
          Leads.thenAccountable (removal _ _ _) fun _ _ => reported _
      dsimp only
      split
      · exact rest between
      · exact Leads.thenAccountable (Leads.commitAccountable sure) fun _ _ => rest _

theorem accountable_deleteNamed (legible : before.Legible) (name owner : String) :
    Leads circumstances (bucket.deleteNamed name owner).run before
      fun result _ => Accountable result := by
  refine Leads.follow (leads_resolve name owner)
    (fun _ _ shows => shows.accountable (legible.accountable_resolved name owner)) ?_
  rintro identity _ ⟨rfl, _⟩
  exact accountable_delete legible.recorded identity

/-- Every deletion of a sequence fails accountably, since the earlier ones leave the records of
stored objects. -/
theorem accountable_deleteEach (recorded : before.Recorded) (identities : List Uuid) :
    Leads circumstances (bucket.deleteEach identities).run before
      fun result _ => Accountable result := by
  induction identities generalizing before with
  | nil => exact Leads.give trivial
  | cons identity rest inductionHypothesis =>
      refine Leads.andThen (Leads.attempt (Leads.mono (Leads.both
        (accountable_delete recorded identity) (leads_delete identity)) ?_))
      rintro result between ⟨accountable, deletes⟩
      have later := @inductionHypothesis between
        (recorded.within deletes.pruned.removals.recordsWithin)
      cases result with
      | ok => exact Leads.thenAccountable later fun _ _ => Leads.give trivial
      | error error =>
          simp only [Leads.Continues]
          split
          · exact Leads.andThen (Leads.emit later)
          · exact Leads.fail accountable

theorem accountable_deleteSelected (recorded : before.Recorded) (selection : Selection) :
    Leads circumstances (bucket.deleteSelected selection).run before
      fun result _ => Accountable result := by
  refine Leads.follow (leads_select selection)
    (fun _ _ shows => shows.accountable (recorded.accountable_selected selection)) ?_
  rintro identities _ ⟨rfl, _⟩
  refine Leads.thenAccountable (accountable_deleteEach recorded identities) fun _ _ => ?_
  exact Leads.andThen (Leads.emitIf (Leads.give trivial))

theorem accountable_run (recorded : before.Recorded) (selection : Selection) :
    Leads circumstances (bucket.run selection).run before
      fun result _ => Accountable result := by
  unfold run
  cases selection.purpose with
  | fetch =>
      dsimp only
      rw [← bind_pure_comp]
      refine Leads.thenAccountable (accountable_look (leads_fetchSelected selection)
        (recorded.accountable_objectsSelected selection)) fun _ _ => Leads.give trivial
  | delete =>
      dsimp only
      rw [← bind_pure_comp]
      exact Leads.thenAccountable (accountable_deleteSelected recorded selection) fun _ _ =>
        Leads.give trivial

/-- A reconciliation fails for the engine only, whatever there is: it writes no key that must be
new, and records that cannot be read are reported and removed. -/
theorem accountable_reconcile :
    Leads circumstances bucket.reconcile.run before fun result _ => Accountable result := by
  have events : ∀ (between : Contents) (events : List Event),
      Leads circumstances (Reconciliation.emitAll events).run between
        fun result _ => Accountable result := fun between events =>
    accountable_look (Reconciliation.leads_emitAll events) trivial
  refine Leads.thenAccountable (accountable_look Reconciliation.leads_survey trivial)
    fun contents between => ?_
  refine Leads.thenAccountable (events between _) fun _ between => ?_
  have reported : ∀ (plan : Reconciliation.Plan) (between : Contents), Leads circumstances (do
      Session.emitIf (!plan.report.isClean) (.repaired plan.report)
      return plan.report : Session Reconciliation.Report).run between
      fun result _ => Accountable result := fun plan between =>
    Leads.andThen (Leads.emitIf (Leads.give trivial))
  dsimp only
  split
  · exact reported _ _
  · refine Leads.thenAccountable (Leads.commitAccountable ?_) fun _ _ => reported _ _
    simp [Reconciliation.Plan.batch]

end Bucket

end Depot
