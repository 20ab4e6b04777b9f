import Depot.Proofs.Runs

/-!
# Identities that are stored again

Only names are written as new keys. Content and record are written whether or not their
identity is stored already, so an object that carries a stored identity replaces the
content and the record of the object stored before it, and two objects of one batch may
carry the same identity. This module says exactly what is kept; that it ought to be
more is not said here.
-/

namespace Depot

/-- The last object of an identity. -/
def Object.last? (identity : Uuid) (objects : List Object) : Option Object :=
  objects.reverse.find? fun object => object.identity = identity

namespace Contents

variable {before after : Contents} {objects : List Object}

theorem payloads_withEntries (before : Contents) (entries : List Entry) :
    (before.withEntries entries).payloads
      = entries.foldl (fun map entry => map.insert entry.key entry.payload) before.payloads := by
  induction entries generalizing before with
  | nil => rfl
  | cons entry rest inductionHypothesis => exact inductionHypothesis (before.withEntry entry)

theorem records_withEntries (before : Contents) (entries : List Entry) :
    (before.withEntries entries).records
      = entries.foldl (fun map entry => map.insert entry.key entry.record) before.records := by
  induction entries generalizing before with
  | nil => rfl
  | cons entry rest inductionHypothesis => exact inductionHypothesis (before.withEntry entry)

theorem names_withEntries (before : Contents) (entries : List Entry) :
    (before.withEntries entries).names
      = entries.foldl (fun map entry => map.insert entry.nameKey entry.key) before.names := by
  induction entries generalizing before with
  | nil => rfl
  | cons entry rest inductionHypothesis => exact inductionHypothesis (before.withEntry entry)

/-- What is bound to an identity after bindings for objects, one after the other, is that
of the identity's last object. -/
theorem get?_foldl_insert_objects (objects : List Object) (value : Object → Bytes)
    (start : OrderedMap Bytes Bytes) (identity : Uuid) :
    (objects.foldl (fun map object => map.insert object.identity.key (value object)) start).get?
        identity.key
      = ((Object.last? identity objects).map value).or (start.get? identity.key) := by
  have same : (fun object : Object => decide (object.identity.key = identity.key))
      = fun object => decide (object.identity = identity) := by
    funext object
    exact decide_eq_decide.2 ⟨Uuid.key_injective, congrArg Uuid.key⟩
  rw [OrderedMap.get?_foldl_insert_last, same]
  rfl

theorem get?_payloads_withEntries (before : Contents) (objects : List Object) (identity : Uuid) :
    (before.withEntries (objects.map Object.entry)).payloads.get? identity.key
      = ((Object.last? identity objects).map Object.payload).or
          (before.payloads.get? identity.key) := by
  rw [payloads_withEntries, List.foldl_map]
  exact get?_foldl_insert_objects objects Object.payload before.payloads identity

theorem get?_records_withEntries (before : Contents) (objects : List Object) (identity : Uuid) :
    (before.withEntries (objects.map Object.entry)).records.get? identity.key
      = ((Object.last? identity objects).map fun object => object.metadata.encode).or
          (before.records.get? identity.key) := by
  rw [records_withEntries, List.foldl_map]
  exact get?_foldl_insert_objects objects (fun object => object.metadata.encode) before.records
    identity

/-- Names that were held stay as they are. -/
theorem Admits.get?_names {entries : List Entry} (admits : before.Admits entries)
    {key holder : Bytes} (held : before.names.get? key = some holder) :
    (before.withEntries entries).names.get? key = some holder := by
  rw [names_withEntries, OrderedMap.get?_foldl_insert_last]
  cases found : entries.reverse.find? fun entry => entry.nameKey = key with
  | none => simpa using held
  | some entry =>
      have free := admits.free entry (List.mem_reverse.1 (List.mem_of_find?_eq_some found))
      have same : entry.nameKey = key := by simpa using List.find?_some found
      rw [same, held] at free
      exact absurd free (by simp)

/-- What storing objects, with success, does to what was stored before. -/
structure Takes (before : Contents) (objects : List Object) (after : Contents) : Prop where
  names : ∀ key holder, before.names.get? key = some holder → after.names.get? key = some holder
  /-- Content and record of an identity stay as they are exactly if the last of the objects
  that has the identity, if there is one, has the same content and the same record. -/
  kept_iff : ∀ identity : Uuid,
    (after.payloads.get? identity.key = before.payloads.get? identity.key ∧
        after.records.get? identity.key = before.records.get? identity.key) ↔
      ∀ object, Object.last? identity objects = some object →
        before.payloads.get? identity.key = some object.payload ∧
          before.records.get? identity.key = some object.metadata.encode

/-- Objects that are all stored are taken so. -/
theorem Created.takes {bucket : Bucket}
    (created : before.Created bucket objects objects.length after) :
    before.Takes objects after := by
  obtain ⟨admits, rfl⟩ := created.all
  refine ⟨fun key holder held => admits.get?_names held, fun identity => ?_⟩
  rw [get?_payloads_withEntries, get?_records_withEntries]
  cases Object.last? identity objects with
  | none => simp
  | some object => simp [eq_comm]

end Contents

namespace Bucket

variable {bucket : Bucket} {store : Store}

/-- An object whose storing is reported as done has replaced the content and the record
of its identity, and nothing else that was stored; so have the objects of a batch, whose
identities, as they are reported, differ only if those of the objects do. -/
theorem takes_of_stored (alone : store.hazard.IsAlone) :
    (∀ object stored, ((bucket.create object).run.run store).1 = .ok stored →
      store.contents.Takes [object] ((bucket.create object).run.run store).2.contents) ∧
    (∀ objects identities, ((bucket.createBatch objects).run store).1.result = .ok identities →
      store.contents.Takes objects ((bucket.createBatch objects).run store).2.contents ∧
        (identities.Nodup ↔ (objects.map Object.identity).Nodup)) := by
  constructor
  · intro object stored done
    obtain ⟨count, created, rfl, _⟩ := leads_create.outcome_of_run alone done
    exact created.takes
  · intro objects identities done
    obtain ⟨count, created, _, given⟩ := leads_createBatch.outcome_of_run alone rfl
    obtain ⟨rfl, rfl⟩ := given identities done
    exact ⟨created.takes, Iff.rfl⟩

/-- A renamed copy of a stored report is stored, and the report's content is gone. -/
theorem renamed_copy_replaces_report :
    let bucket : Bucket := ⟨{}, none⟩
    let before := ((bucket.create Object.report).run.run {}).2
    let after := ((bucket.create Object.renamedReport).run.run before).2
    before.contents.Takes [Object.renamedReport] after.contents ∧
      before.contents.get? .payload Object.report.identity.key = some [] ∧
      after.contents.get? .payload Object.report.identity.key = some [50] := by
  refine ⟨?_, by decide +kernel, by decide +kernel⟩
  refine (takes_of_stored ?_).1 Object.renamedReport Object.renamedReport.sealed (by decide +kernel)
  trivial

/-- Some creation in some run is reported as done and replaces the content of an object that
was stored before. -/
theorem exists_creation_replacing_content :
    ∃ (bucket : Bucket) (store : Store) (object stored : Object) (identity : Uuid),
      Served bucket AreMade {} store ∧ object.Made ∧
        ((bucket.create object).run.run store).1 = .ok stored ∧
        (store.contents.records.get? identity.key).isSome ∧
        ((bucket.create object).run.run store).2.contents.payloads.get? identity.key
          ≠ store.contents.payloads.get? identity.key := by
  let bucket : Bucket := ⟨{}, none⟩
  have reached : Served bucket AreMade {} ((bucket.serve (.create Object.report)).run {}).2 :=
    .serve .start (.create Object.report) (List.forall_mem_singleton.2 Object.made_report)
  exact ⟨bucket, _, Object.renamedReport, Object.renamedReport.sealed, Object.report.identity,
    reached, Object.made_renamedReport, by decide +kernel, by decide +kernel, by decide +kernel⟩

end Bucket

end Depot
