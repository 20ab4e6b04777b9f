import Depot.Proofs.Bucket.Footprint
import Depot.Proofs.Reconciliation.Admission
import Depot.Proofs.Session.Keys

/-!
# What a bucket asks of its engine

A bucket binds keys of two kinds only: those of identities, and those of names within the
limit with an owner in canonical form. It looks no empty key up. So on an engine that takes
these keys, where no call is refused, every operation ends as it does in memory. Names that
are removed or written again later were read from records, and what is known of those is known
of the contents alone.
-/

namespace Depot

/-- An engine takes the keys that a bucket binds. -/
structure KeyRule.TakesObjects (rule : KeyRule) : Prop where
  names : rule.TakesNames
  identities : ∀ identity : Uuid, rule.admitsBinding identity.key = true

/-- An engine on disk takes keys of 1 to 511 bytes. -/
theorem KeyRule.admitsBinding_pageBound_iff {key : Bytes} :
    KeyRule.pageBound.admitsBinding key = true ↔ 0 < key.length ∧ key.length ≤ 511 := by
  cases key <;> simp [admitsBinding, admitsLookup, pageBound]

/-- An engine on disk takes objects. -/
theorem KeyRule.takesObjects_pageBound : KeyRule.pageBound.TakesObjects where
  names := takesNames_pageBound
  identities identity := by
    have identifier : identity.key.length ≤ _ := Utf8.length_encode_le identity.toText
    rw [Uuid.length_toList_toText] at identifier
    refine admitsBinding_pageBound_iff.2 ⟨?_, by omega⟩
    exact List.length_pos_iff.2 identity.key_ne_nil

variable {rule : KeyRule} {before : Contents} {bucket : Bucket} {entry : Entry}

/-- An engine admits every write of an entry if it takes the keys of its name and its identity. -/
theorem Entry.admits_of_keys (named : rule.admitsBinding entry.nameKey = true)
    (identified : rule.admitsBinding entry.key = true) :
    ∀ write ∈ entry.fullWrite.writes, rule.Admits write := by
  rw [writes_fullWrite]
  exact List.forall_mem_cons.2
    ⟨named, List.forall_mem_cons.2 ⟨identified, List.forall_mem_singleton.2 identified⟩⟩

/-- An engine that takes objects admits every write of a sound entry. -/
theorem Entry.Sound.admits (takes : rule.TakesObjects) (sound : entry.Sound) :
    ∀ write ∈ entry.fullWrite.writes, rule.Admits write := by
  obtain ⟨owner, canonical, _, _, describes⟩ := sound
  have named : rule.admitsBinding entry.nameKey = true := by
    rw [Entry.nameKey, canonical]
    exact takes.names entry.name owner describes.short
  exact Entry.admits_of_keys named (takes.identities entry.identity)

/-- So it admits every write of a reconciliation. -/
theorem Reconciliation.admits_of_mem_plan (takes : rule.TakesObjects) (recorded : before.Recorded)
    (keyed : before.Keyed) : ∀ write ∈ (plan before).batch.writes, rule.Admits write := by
  intro write member
  have sure := sure_of_mem_plan takes.names recorded keyed write member
  cases write with
  | put => exact sure
  | putNew => exact sure.elim
  | delete => exact sure

/-- Identities have keys, so what is done under them abides by every rule. -/
theorem KeyRule.coversIdentities (rule : KeyRule) : rule.footprint.CoversIdentities where
  looks _ _ identity := identity.key_ne_nil
  deletes _ _ identity := rule.admitsLookup_of_ne_nil identity.key_ne_nil
  visits := trivial

theorem KeyRule.coversName (rule : KeyRule) {key : Bytes} (present : key ≠ []) :
    rule.footprint.CoversName key :=
  ⟨present, rule.admitsLookup_of_ne_nil present⟩

/-- The names that records claim have keys. -/
theorem Contents.claimsOnly_footprint (contents : Contents) (identities : List Uuid)
    (rule : KeyRule) : contents.ClaimsOnly identities rule.footprint.CoversName :=
  fun _ _ _ _ _ claimed => rule.coversName (Bucket.ne_nil_of_claimedName claimed)

theorem KeyRule.coversEntry {rule : KeyRule}
    (admits : ∀ write ∈ entry.fullWrite.writes, rule.Admits write) :
    rule.footprint.CoversEntry entry :=
  ⟨nameKey_ne_nil entry.name entry.owner, admits⟩

namespace Bucket

theorem abides_fetchReported (identities : List Uuid) (connective : Connective) :
    Abides rule (do
      let objects ← bucket.fetchEach identities
      bucket.report (.selectionFetched objects.length connective)
      return objects : Session (List Object)).run before :=
  (uses_fetchReported rule.coversIdentities identities connective).abides

theorem abides_fetchSelected (selection : Selection) :
    Abides rule (bucket.fetchSelected selection).run before :=
  (uses_fetchSelected rule.coversIdentities selection).abides

theorem abides_delete (identity : Uuid) :
    Abides rule (bucket.delete identity).run before :=
  (uses_delete rule.coversIdentities (before.claimsOnly_footprint _ rule)).abides

theorem abides_deleteNamed (name owner : String) :
    Abides rule (bucket.deleteNamed name owner).run before :=
  (uses_deleteNamed rule.coversIdentities (fun canonical _ _ => nameKey_ne_nil name canonical)
    (before.claimsOnly_footprint _ rule)).abides

theorem abides_deleteReported (identities : List Uuid) (connective : Connective) :
    Abides rule (do
      let count ← bucket.deleteEach identities
      bucket.report (.selectionDeleted count connective)
      return count : Session Nat).run before :=
  (uses_deleteReported rule.coversIdentities (before.claimsOnly_footprint identities rule)
    connective).abides

theorem abides_deleteSelected (selection : Selection) :
    Abides rule (bucket.deleteSelected selection).run before :=
  (uses_deleteSelected rule.coversIdentities (before.claimsOnly_footprint _ rule)).abides

/-- An engine that admits the writes of an object stores it as an engine in memory does. -/
theorem abides_create_of_admits {object : Object}
    (admits : object.Storable bucket.settings.requireContentType →
      ∀ write ∈ object.entry.fullWrite.writes, rule.Admits write) :
    Abides rule (bucket.create object).run before :=
  (uses_create fun storable => KeyRule.coversEntry (admits storable)).abides

/-- An engine that admits the writes of objects stores them as an engine in memory does. -/
theorem abides_createBatch_of_admits {objects : List Object}
    (admits : ∀ object ∈ objects, object.Storable bucket.settings.requireContentType →
      ∀ write ∈ object.entry.fullWrite.writes, rule.Admits write) :
    Abides rule (bucket.createBatch objects) before :=
  (uses_createBatch fun object member storable =>
    KeyRule.coversEntry (admits object member storable)).abides

end Bucket

end Depot
