import Depot.Proofs.Object.Operations

/-!
# What a name key tells

The separator may stand anywhere in a name, but all owners in canonical form have the same
width. So a key has one name and one owner, and its length is theirs with the separator.
-/

namespace Depot

/-- A text is an identifier in canonical form. -/
def Uuid.IsCanonical (text : String) : Prop := ∃ uuid : Uuid, uuid.toText = text

/-- A key is that of a name within the limit and an owner in canonical form. -/
def IsNameKey (key : Bytes) : Prop :=
  ∃ (name : String) (owner : Uuid), name.utf8ByteSize ≤ Object.nameLimit ∧
    nameKey name owner.toText = key

/-- Names with canonical owners can be told from their keys. -/
theorem eq_of_nameKey_of_isCanonical {name otherName owner otherOwner : String}
    (canonical : Uuid.IsCanonical owner) (canonicalToo : Uuid.IsCanonical otherOwner)
    (same : nameKey name owner = nameKey otherName otherOwner) :
    name = otherName ∧ owner = otherOwner := by
  obtain ⟨uuid, rfl⟩ := canonical
  obtain ⟨otherUuid, rfl⟩ := canonicalToo
  exact (nameKey_injective same).imp_right (congrArg Uuid.toText)

/-- A key has the bytes of its name, of the separator and of its owner. -/
theorem length_nameKey (name owner : String) :
    (nameKey name owner).length = name.utf8ByteSize + 1 + owner.utf8ByteSize := by
  have separator : nameSeparator.utf8ByteSize = 1 := by decide
  rw [nameKey, Utf8.length_encode, String.utf8ByteSize_append, String.utf8ByteSize_append,
    separator]

namespace Object

variable {object : Object}

theorem Whole.isCanonical_owner (whole : object.Whole) : Uuid.IsCanonical object.owner := by
  obtain ⟨owner, canonical⟩ := whole.owner
  exact ⟨owner, canonical.symm⟩

/-- An object that is fit for storing has a name key of 38 to 292 bytes. -/
theorem Whole.length_nameKey (whole : object.Whole) :
    38 ≤ (nameKey object.name object.owner).length ∧
      (nameKey object.name object.owner).length ≤ 292 := by
  have nonempty := whole.nonempty
  have short := whole.short
  rw [Depot.length_nameKey, whole.ownerSize]
  omega

end Object

end Depot
