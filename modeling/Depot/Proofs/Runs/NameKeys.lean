import Depot.Proofs.NameKey
import Depot.Proofs.Reconciliation.Specification
import Depot.Proofs.Runs.Engines
import Depot.Proofs.Session.Bindings

/-!
# Name keys throughout a run

A bucket builds name keys of four kinds: for objects that it stores, for a name that it is asked
for, for the records of objects that it removes, and for all records when it reconciles. In a
run all of them have a name within the limit and an owner in canonical form, also those that are
built again from records. A request that does not go through the whole name region heeds no
other names, and no request binds any others.
-/

namespace Depot

namespace Footprint

variable {key other : Bytes} {entry : Entry}

/-- The keys of identities are in other regions. -/
theorem beside_coversIdentities (key : Bytes) : (beside key).CoversIdentities where
  looks _ apart _ := fun same => apart (congrArg Prod.fst same)
  deletes _ apart _ := fun same => apart (congrArg Prod.fst same)
  visits := Region.noConfusion

theorem beside_coversName (apart : other ≠ key) : (beside key).CoversName other where
  looks := fun same => apart (congrArg Prod.snd same)
  deletes := fun same => apart (congrArg Prod.snd same)

/-- An entry with another name is written elsewhere. -/
theorem beside_coversEntry (apart : entry.nameKey ≠ key) : (beside key).CoversEntry entry where
  looks := fun same => apart (congrArg Prod.snd same)
  writes := by
    rw [Entry.writes_fullWrite]
    refine List.forall_mem_cons.2 ⟨fun same => apart (congrArg Prod.snd same), ?_⟩
    refine List.forall_mem_cons.2 ⟨fun same => Region.noConfusion (congrArg Prod.fst same), ?_⟩
    exact List.forall_mem_singleton.2 fun same => Region.noConfusion (congrArg Prod.fst same)

end Footprint

namespace Bucket

variable {circumstances : Circumstances} {bucket : Bucket} {before : Contents} {request : Request}
  {key : Bytes}

/-- Where the records are those of stored objects, only keys of names with canonical owners are
built. -/
theorem Builds.isNameKey (builds : bucket.Builds before request key) (recorded : before.Recorded)
    (made : AreMade before request.objects) : IsNameKey key := by
  have sought : ∀ {name owner canonical : String},
      Uuid.normalise Metadata.Key.owner.text owner = .ok canonical →
      name.utf8ByteSize ≤ Object.nameLimit → IsNameKey (nameKey name canonical) := by
    intro name owner canonical accepted short
    obtain ⟨uuid, _, rfl⟩ := Uuid.normalise_eq_ok_iff.1 accepted
    exact ⟨name, uuid, short, rfl⟩
  cases builds with
  | @stored _ object entry among prepared =>
      obtain ⟨storable, rfl⟩ := Entry.prepare_eq_ok_iff.1 prepared
      exact Contents.limited_of_sound (Entry.sound (made object among) storable)
  | fetched accepted short => exact sought accepted short
  | deleted accepted short => exact sought accepted short
  | claimed _ found claimed =>
      obtain ⟨name, owner, describes, _⟩ := recorded.describes found
      have same := describes.claimedName.symm.trans claimed
      exact ⟨name, owner, describes.short, Option.some.inj same⟩
  | recorded held claimed =>
      obtain ⟨_, name, owner, _, described⟩ := recorded _ _ held
      have same := described.claim.symm.trans claimed
      obtain ⟨_, _, describes⟩ := described
      exact ⟨name, owner, describes.short, Option.some.inj same⟩

/-- A request overlooks the names whose keys are not built for it, unless it goes through the
whole name region. -/
theorem overlooks_reply (plain : request ≠ .reconcile)
    (apart : ¬ bucket.Builds before request key) :
    Overlooks circumstances key (bucket.reply request) before := by
  have other : ∀ built, bucket.Builds before request built → built ≠ key :=
    fun built builds same => apart (same ▸ builds)
  have covers : (Footprint.beside key).CoversRequest bucket before request := {
    identities := Footprint.beside_coversIdentities key
    names := fun built builds => Footprint.beside_coversName (other built builds)
    entries := fun object among storable => Footprint.beside_coversEntry
      (other _ (.stored among (Entry.prepare_eq_ok_iff.2 ⟨storable, rfl⟩)))
    visits := fun reconciles => absurd reconciles plain
    planned := fun reconciles => absurd reconciles plain }
  exact (uses_reply covers).overlooks

/-- A name that a request heeds has a key that is built for it. -/
theorem builds_of_heeds {store : Store} (alone : store.hazard.IsAlone)
    (plain : request ≠ .reconcile) (heeds : Heeds (bucket.reply request) store key) :
    bucket.Builds store.contents request key := by
  by_contra apart
  exact (overlooks_reply plain apart).not_heeds (Circumstances.hold_unreliable alone) heeds

/-- A name that a reconciliation binds is claimed by a record. -/
theorem builds_of_reconcile {store : Store} (alone : store.hazard.IsAlone)
    (free : store.contents.names.get? key = none)
    (bound : (bucket.reconcile.run.run store).2.contents.names.get? key ≠ none) :
    bucket.Builds store.contents .reconcile key := by
  have ends : Reconciliation.Ends (.unreliable store.keyRule) store.contents
      (bucket.reconcile.run.run store).1 (bucket.reconcile.run.run store).2.contents :=
    (Reconciliation.leads_reconcile store (Circumstances.hold_unreliable alone) rfl).2
  rcases reconciled : bucket.reconcile.run.run store with ⟨error | report, left⟩
  · rw [reconciled] at ends bound
    exact absurd (ends.1 ▸ free) bound
  · rw [reconciled] at ends bound
    obtain ⟨identity, found⟩ := Option.ne_none_iff_exists'.1 bound
    rw [ends.1, Reconciliation.get?_names_reconciled_iff] at found
    obtain ⟨⟨_, record, metadata, name, owner, held, read, claim⟩, _⟩ := found
    refine .recorded held ?_
    rw [Reconciliation.claimOfRecord?, read]
    exact Reconciliation.claim?_eq_some_iff.2 ⟨name, owner, claim⟩

/-- A name that a request binds has a key that is built for it. -/
theorem builds_of_bound {store : Store} (alone : store.hazard.IsAlone)
    (free : store.contents.names.get? key = none)
    (bound : ((bucket.reply request).run store).2.contents.names.get? key ≠ none) :
    bucket.Builds store.contents request key := by
  by_cases plain : request = .reconcile
  · subst plain
    exact builds_of_reconcile alone free bound
  · by_contra apart
    exact bound ((overlooks_reply plain apart).free (Circumstances.hold_unreliable alone) free)

/-- What holds of the name keys that a bucket has to do with. -/
structure KeysUnambiguous (bucket : Bucket) (store : Store) : Prop where
  bound : ∀ key holder, store.contents.names.get? key = some holder → IsNameKey key
  built : ∀ request key, AreMade store.contents request.objects →
    bucket.Builds store.contents request key → IsNameKey key
  /-- A request that does not go through the whole region heeds no other keys than those built. -/
  heeded : ∀ request key, request ≠ .reconcile → Heeds (bucket.reply request) store key →
    bucket.Builds store.contents request key
  added : ∀ request key, store.contents.names.get? key = none →
    ((bucket.reply request).run store).2.contents.names.get? key ≠ none →
      bucket.Builds store.contents request key

end Bucket

/-- Names with canonical owners have the same key only if they are the same, whatever stands in
them. An object that passes validation, whatever was asked of it since it was created, has a
canonical owner and a name key of 38 to 292 bytes. In a run from empty regions, with any calls
refused on the way, a bucket has to do with no name keys but those with canonical owners. -/
theorem name_keys_unambiguous :
    (∀ name otherName owner otherOwner, Uuid.IsCanonical owner → Uuid.IsCanonical otherOwner →
      (nameKey name owner = nameKey otherName otherOwner ↔
        name = otherName ∧ owner = otherOwner)) ∧
    (∀ source now name owner object, (Object.create source now name owner).1 = .ok object →
      ∀ operations requireContentType,
        (object.after operations).validate requireContentType = .ok () →
          Uuid.IsCanonical (object.after operations).owner ∧
          38 ≤ (nameKey (object.after operations).name (object.after operations).owner).length ∧
          (nameKey (object.after operations).name (object.after operations).owner).length ≤ 292) ∧
    ∀ (bucket : Bucket) (start store : Store), start.hazard.IsAlone → start.contents = {} →
      Served bucket AreMade start store → bucket.KeysUnambiguous store := by
  refine ⟨fun name otherName owner otherOwner canonical canonicalToo => ?_, ?_, ?_⟩
  · constructor
    · exact eq_of_nameKey_of_isCanonical canonical canonicalToo
    · rintro ⟨rfl, rfl⟩
      rfl
  · intro source now name owner object created operations requireContentType valid
    obtain ⟨identity, ownerUuid, _, rfl⟩ := Object.create_eq_ok created
    have steady := (Object.steady_make identity ownerUuid name now).throughout operations
    have whole := steady.whole valid
    exact ⟨whole.isCanonical_owner, whole.length_nameKey⟩
  · intro bucket start store alone empty served
    obtain ⟨aloneNow, bounded⟩ :=
      served.invariant alone (empty ▸ Contents.bounded_empty) Course.bounded
    exact {
      bound := bounded.limited
      built := fun request key made builds => builds.isNameKey bounded.recorded made
      heeded := fun request key => Bucket.builds_of_heeds aloneNow
      added := fun request key => Bucket.builds_of_bound aloneNow }

/-- A report is renamed so that its name ends like a key of its old name. In a run it gets its name
but no record. It is asked for with its owner in plain digits, and the name that this heeds has the
owner in canonical form. -/
theorem name_keys_unambiguous_report :
    let owner := (⟨3⟩ : Uuid).toText
    let name := "report_00000000-0000-0000-0000-000000000003"
    let created := Object.make (Uuid.Source.next {}).1 ⟨3⟩ "report" ⟨0, 0⟩
    let renamed := created.after [.setValue "name" name, .append [1]]
    let start : Store := { hazard := .gated [(.commit, 2)] }
    let named := ((Bucket.stepwise.serve (.create Object.report)).run start).2
    let request : Request := .fetchNamed "report" "00000000000000000000000000000003"
    nameKey name owner ≠ nameKey "report" owner ∧
      renamed.validate false = .ok () ∧ renamed.name = name ∧
      38 ≤ (nameKey renamed.name renamed.owner).length ∧
      (nameKey renamed.name renamed.owner).length ≤ 292 ∧
      named.contents.sizes = [1, 1, 0] ∧
      Heeds (Bucket.stepwise.reply request) named (nameKey "report" owner) ∧
      Bucket.stepwise.Builds named.contents request (nameKey "report" owner) ∧
      IsNameKey (nameKey "report" owner) := by
  intro owner name created renamed start named request
  have canonical : Uuid.IsCanonical owner := ⟨⟨3⟩, rfl⟩
  have apart := (name_keys_unambiguous.1 name "report" owner owner canonical canonical).not.2
    fun same => absurd same.1 (by decide)
  have valid : renamed.validate false = .ok () := by decide +kernel
  obtain ⟨_, least, most⟩ := name_keys_unambiguous.2.1 {} ⟨0, 0⟩ "report" owner created
    (by decide +kernel) [.setValue "name" name, .append [1]] false valid
  have served : Served Bucket.stepwise AreMade start named :=
    .serve .start (.create Object.report) (List.forall_mem_singleton.2 Object.made_report)
  have keys := name_keys_unambiguous.2.2 Bucket.stepwise start named trivial rfl served
  have heeds : Heeds (Bucket.stepwise.reply request) named (nameKey "report" owner) := by
    refine ⟨none, fun same => ?_⟩
    have results := Reply.object.inj (congrArg Prod.fst same)
    exact absurd results (by decide +kernel)
  have builds := keys.heeded request _ (by simp [request]) heeds
  exact ⟨apart, valid, by decide +kernel, least, most, by decide +kernel, heeds, builds,
    keys.built request _ (fun _ member => absurd member List.not_mem_nil) builds⟩

end Depot
