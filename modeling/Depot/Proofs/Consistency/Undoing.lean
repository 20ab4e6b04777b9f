import Depot.Proofs.Bucket.Calm

/-!
# What a deletion takes away

A deletion where no call is refused takes away what belongs to the identity, entry by entry, and
nothing else, whatever else the regions hold. It is done whenever there is a record that can be
read, and changes nothing otherwise. The key that it rebuilds from a record is the key under which
the object's name was written, so that a deletion after a creation, by identity or by name, brings
back the contents from before.
-/

namespace Depot

namespace Contents

variable {contents : Contents} {entry : Entry} {metadata : Metadata}

/-- An entry that was written under a new identity and a free name is removed without a trace by
metadata that claims its name. -/
theorem without_withEntry (claimed : Bucket.claimedName metadata = some entry.nameKey)
    (free : contents.names.get? entry.nameKey = none)
    (new : contents.records.get? entry.key = none)
    (empty : contents.payloads.get? entry.key = none) :
    (contents.withEntry entry).without entry.identity metadata = contents := by
  have leads : (contents.names.insert entry.nameKey entry.key).get? entry.nameKey
      = some entry.identity.key := OrderedMap.get?_insert_self _ _ _
  have unnamed : (contents.withEntry entry).withoutName entry.identity metadata
      = (contents.withPayload entry).withRecord entry := by
    unfold withoutName
    rw [claimed]
    refine (if_pos leads).trans ?_
    show Contents.mk _ ((contents.names.insert entry.nameKey entry.key).erase entry.nameKey) _ = _
    rw [OrderedMap.erase_insert_of_free _ _ free]
    rfl
  rw [without, unnamed]
  show Contents.mk ((contents.payloads.insert entry.key entry.payload).erase entry.key)
    contents.names ((contents.records.insert entry.key entry.record).erase entry.key) = _
  rw [OrderedMap.erase_insert_of_free _ _ empty, OrderedMap.erase_insert_of_free _ _ new]

/-- Consistent contents have no content for an identity without a record. -/
theorem Consistent.get?_payloads_of_new (consistent : contents.Consistent) {key : Bytes}
    (new : contents.records.get? key = none) : contents.payloads.get? key = none := by
  have same := consistent.sameKeys key
  rw [OrderedMap.contains_eq_isSome, OrderedMap.contains_eq_isSome, new] at same
  exact Option.isNone_iff_eq_none.1 (Option.isSome_eq_false_iff.1 same)

/-- What a deletion that meets no refusal comes to, told entry by entry. -/
structure Erasure (before : Contents) (identity : Uuid) (result : Except StoreError Unit)
    (after : Contents) : Prop where
  done_iff : result = .ok () ↔ ∃ record metadata,
    before.get? .metadata identity.key = some record ∧ Metadata.decode record = .ok metadata
  left : ∀ record metadata, before.get? .metadata identity.key = some record →
    Metadata.decode record = .ok metadata → ∀ region key value,
      after.get? region key = some value ↔
        before.get? region key = some value ∧ ¬ Belongs identity metadata region key value
  unchanged : ∀ error, result = .error error → after = before

end Contents

namespace Bucket

variable {store after : Store} {bucket : Bucket} {object stored : Object}

/-- A deletion on a calm engine erases the identity. -/
theorem erasure_of_delete (calm : store.hazard = .none) (bucket : Bucket) (identity : Uuid) :
    store.contents.Erasure identity ((bucket.delete identity).run.run store).1
      ((bucket.delete identity).run.run store).2.contents := by
  have removed := bucket.delete_of_calm calm identity
  have readable := @Contents.metadataOf_eq_ok_iff store.contents identity
  cases found : store.contents.metadataOf identity with
  | ok metadata =>
      rw [found] at removed
      obtain ⟨done, left⟩ := removed
      obtain ⟨record, held, read⟩ := readable.1 found
      rw [done, left]
      refine ⟨iff_of_true rfl ⟨record, metadata, held, read⟩, ?_, by simp⟩
      intro otherRecord other heldAgain readAgain region key value
      obtain rfl := Except.ok.inj (found.symm.trans (readable.2 ⟨_, heldAgain, readAgain⟩))
      exact Contents.get?_without_iff
  | error error =>
      rw [found] at removed
      obtain ⟨failed, left⟩ := removed
      have unreadable {record : Bytes} {metadata : Metadata}
          (held : store.contents.get? .metadata identity.key = some record) :
          Metadata.decode record ≠ .ok metadata := fun read =>
        absurd (found.symm.trans (readable.2 ⟨record, held, read⟩)) (by simp)
      rw [failed, left]
      refine ⟨iff_of_false (by simp) ?_, ?_, fun _ _ => rfl⟩
      · rintro ⟨record, metadata, held, read⟩
        exact unreadable held read
      · exact fun _ _ held read => absurd read (unreadable held)

/-- Once a new object is created in consistent contents on a calm engine, its metadata is found
under its identity, its name leads there with the owner in any spelling, and without it the
contents are those from before. -/
theorem found_of_create (calm : store.hazard = .none) (consistent : store.contents.Consistent)
    (made : object.Made) (new : store.contents.get? .metadata object.identity.key = none)
    (ran : (bucket.create object).run.run store = (.ok stored, after)) :
    after.hazard = .none ∧ after.contents.metadataOf object.identity = .ok object.metadata ∧
      (∀ owner, Uuid.canonicalise owner = object.owner →
        after.contents.resolved object.name owner = .ok object.identity) ∧
      after.contents.without object.identity object.metadata = store.contents ∧
      store.contents.get? .name object.entry.nameKey = none := by
  have alone := (Circumstances.hold_of_calm calm).alone
  obtain ⟨storable, free, left⟩ := create_eq_ok alone (congrArg Prod.fst ran)
  have holdAfter := bucket.hold_of_create calm object
  rw [ran] at left holdAfter
  obtain ⟨owner, canonical, describes⟩ :=
    (made.orderly storable.unsealed).describes storable.valid
  have claimed : claimedName object.metadata = some object.entry.nameKey := by
    rw [describes.claimedName, ← canonical]
    rfl
  have has := store.contents.has_withEntry object.entry
  rw [left]
  refine ⟨holdAfter.calm id, has.metadataOf made, fun _ => has.resolved (Entry.sound made storable),
    ?_, free⟩
  exact Contents.without_withEntry claimed free new (consistent.get?_payloads_of_new new)

/-- A deletion on a calm engine erases the identity. After the creation of a new object in
consistent contents, a deletion by identity, or by name with the owner in any spelling, brings the
contents back, in which the name is free. -/
theorem delete_undoes_create (calm : store.hazard = .none) (bucket : Bucket) :
    (∀ identity result after, (bucket.delete identity).run.run store = (result, after) →
      store.contents.Erasure identity result after.contents) ∧
    (store.contents.Consistent → ∀ object stored after, object.Made →
      store.contents.get? .metadata object.identity.key = none →
      (bucket.create object).run.run store = (.ok stored, after) →
      (∃ last, (bucket.delete object.identity).run.run after = (.ok (), last) ∧
        last.contents = store.contents) ∧
      (∀ owner, Uuid.canonicalise owner = object.owner →
        ∃ last, (bucket.deleteNamed object.name owner).run.run after = (.ok (), last) ∧
          last.contents = store.contents) ∧
      store.contents.get? .name object.entry.nameKey = none) := by
  constructor
  · intro identity result after ran
    have erasure := erasure_of_delete calm bucket identity
    rwa [ran] at erasure
  · intro consistent object stored after made new ran
    obtain ⟨calmAfter, found, leadsTo, restored, free⟩ :=
      found_of_create calm consistent made new ran
    obtain ⟨done, left⟩ := @delete_of_found _ bucket _ _ calmAfter found
    refine ⟨⟨_, Prod.fst_eq_iff.1 done, left.trans restored⟩, fun owner same => ?_, free⟩
    have removed := @deleteNamed_of_found _ bucket _ _ _ _ calmAfter (leadsTo owner same) found
    exact ⟨_, Prod.fst_eq_iff.1 removed.1, removed.2.trans restored⟩

/-- The second report is stored and deleted by name, with the owner in plain capital digits, and
the summary is there as before. -/
theorem delete_undoes_create_summary :
    let bucket := (⟨{}, none⟩ : Bucket).withMode .independent
    let store : Store := { contents := ({} : Contents).withEntry Object.summary.entry }
    let report := Object.make ⟨1⟩ ⟨0xA⟩ "report" ⟨0, 0⟩
    ∃ stored after last, (bucket.create report).run.run store = (.ok stored, after) ∧
      (bucket.deleteNamed "report" "0000000000000000000000000000000A").run.run after
        = (.ok (), last) ∧
      last.contents = store.contents ∧ after.contents ≠ store.contents ∧
      store.contents.Erasure ⟨4⟩ ((bucket.delete ⟨4⟩).run.run store).1
        ((bucket.delete ⟨4⟩).run.run store).2.contents ∧
      ((bucket.delete ⟨4⟩).run.run store).1 = .ok () := by
  intro bucket store report
  have calm : store.hazard = .none := rfl
  have consistent : store.contents.Consistent :=
    Contents.consistent_of_sound (@Entry.sound false _ Object.made_summary ⟨rfl, by decide +kernel⟩)
  have made : report.Made := .make ⟨by decide +kernel, by decide +kernel⟩
  have stores : (bucket.create report).run.run store
      = (.ok report.sealed, ((bucket.create report).run.run store).2) :=
    Prod.fst_eq_iff.1 (by decide +kernel)
  obtain ⟨erases, undoes⟩ := delete_undoes_create calm bucket
  obtain ⟨_, undoesNamed, _⟩ := undoes consistent report _ _ made (by decide +kernel) stores
  obtain ⟨last, ran, left⟩ := undoesNamed "0000000000000000000000000000000A" (by decide +kernel)
  exact ⟨_, _, last, stores, ran, left, by decide +kernel, erases _ _ _ rfl, by decide +kernel⟩

end Bucket

end Depot
