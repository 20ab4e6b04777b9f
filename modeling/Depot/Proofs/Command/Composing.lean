import Depot.Proofs.Command.Working
import Depot.Proofs.Metadata.Reading

/-!
# Objects that a command line describes

Keys and values come joined by an equals sign and are divided at the first one, so that values may
have further ones. An object is made of them by setting one value after the other; where a key is
repeated, the last value counts. Values under the keys of the store are another matter: its own are
left as they are, and an owner is brought into canonical form.
-/

namespace Depot

namespace Metadata

variable {metadata : Metadata} {entries : List (String × String)} {key value : String}

/-- A bag after values were set in it one after the other, as an object sets them. -/
def setAll (metadata : Metadata) (entries : List (String × String)) : Metadata :=
  entries.foldl (fun metadata entry => metadata.set entry.1 (Object.keptValue entry.1 entry.2))
    metadata

/-- The last value that is set under a key counts, unless the key belongs to the store alone. -/
theorem get?_setAll (metadata : Metadata) (entries : List (String × String)) (key : String) :
    (metadata.setAll entries).get? key
      = if isProtected key then metadata.get? key
        else (((ofEntries entries).get? key).map (Object.keptValue key)).or
          (metadata.get? key) := by
  rw [get?_ofEntries]
  induction entries generalizing metadata with
  | nil => simp [setAll]
  | cons entry rest inductionHypothesis =>
      show ((metadata.set entry.1 (Object.keptValue entry.1 entry.2)).setAll rest).get? key = _
      rw [inductionHypothesis, get?_set, List.reverse_cons, List.find?_append]
      by_cases own : key = entry.1
      · obtain rfl := own
        cases isProtected entry.1 with
        | true => simp
        | false => cases rest.reverse.find? fun other => other.1 = entry.1 <;> simp
      · simp [own, Ne.symm own]

/-- A key under which no value is set keeps its value. -/
theorem get?_setAll_of_absent (metadata : Metadata) (absent : ∀ entry ∈ entries, entry.1 ≠ key) :
    (metadata.setAll entries).get? key = metadata.get? key := by
  have none : entries.reverse.find? (fun entry => entry.1 = key) = none :=
    List.find?_eq_none.2 fun entry member => by simpa using absent entry (List.mem_reverse.1 member)
  rw [get?_setAll, get?_ofEntries, none]
  cases isProtected key <;> simp

end Metadata

namespace Command

variable {given : Given} {parameter : Parameter} {entries : List (String × String)}
  {storing : Storing} {source : Uuid.Source} {now : Instant} {content : Bytes} {object : Object}
  {requireContentType : Bool} {key value : String}

/-! ## Keys and values -/

/-- The keys to which the store gives a meaning. -/
def meaningfulKeys : List String :=
  [Metadata.Key.id.text, Metadata.Key.createdAt.text, Metadata.Key.name.text,
    Metadata.Key.owner.text, Metadata.Key.contentType.text]

/-- A key that can be given with a value on a command line and has no meaning to the store. -/
structure IsTag (key : String) : Prop where
  nonempty : key ≠ ""
  plain : '=' ∉ key.toList
  meaningless : key ∉ meaningfulKeys

/-- A key and a value as they are written in one word. -/
def joined (entry : String × String) : String := entry.1 ++ "=" ++ entry.2

/-- Characters are divided at their first equals sign. -/
theorem splitAtSign_append {characters : List Char} (plain : '=' ∉ characters)
    (others : List Char) :
    splitAtSign (characters ++ '=' :: others) = some (characters, others) := by
  induction characters with
  | nil => rfl
  | cons character rest inductionHypothesis =>
      rw [List.mem_cons, not_or] at plain
      rw [List.cons_append, splitAtSign, inductionHypothesis plain.2]
      · rfl
      · exact fun same => plain.1 same.symm

/-- A key and a value that are written in one word are read from it. -/
theorem assignment_joined {entry : String × String} (nonempty : entry.1 ≠ "")
    (plain : '=' ∉ entry.1.toList) : assignment (joined entry) = .ok entry := by
  have characters : (joined entry).toList = entry.1.toList ++ '=' :: entry.2.toList := by
    simp [joined, String.toList_append]
  have present : entry.1.toList ≠ [] := fun empty => nonempty (String.toList_eq_nil_iff.1 empty)
  rw [assignment, characters, splitAtSign_append plain]
  cases split : entry.1.toList with
  | nil => exact absurd split present
  | cons first rest =>
      show Except.ok (String.ofList (first :: rest), String.ofList entry.2.toList) = .ok entry
      rw [← split, String.ofList_toList, String.ofList_toList]

/-- So are all that a parameter is given. -/
theorem assignments_eq (words : given.all parameter = entries.map joined)
    (tags : ∀ entry ∈ entries, IsTag entry.1) : assignments given parameter = entries := by
  rw [assignments, words, List.filterMap_map]
  refine (List.filterMap_congr fun entry member => ?_).trans List.filterMap_some
  show (assignment (joined entry)).toOption = some entry
  rw [assignment_joined (tags entry member).nonempty (tags entry member).plain]
  rfl

/-! ## Composition -/

/-- Values that can be set are set one after the other. -/
theorem setValues_eq_ok {after : Object}
    (done : entries.foldlM (fun object (entry : String × String) =>
      object.setValue entry.1 entry.2) object = .ok after) :
    after = { object with metadata := object.metadata.setAll entries } := by
  induction entries generalizing object with
  | nil => exact (Except.ok.inj done).symm
  | cons entry rest inductionHypothesis =>
      rw [List.foldlM_cons] at done
      obtain ⟨middle, set, done⟩ := bind_eq_ok_iff.1 done
      rw [inductionHypothesis done, (Object.setValue_eq_ok set).2]
      rfl

/-- A composed object is a new one of the name and the owner, in which all values are set, with the
content of the file. -/
theorem Storing.objectFrom_eq_ok (made : storing.objectFrom source now content = .ok object) :
    ∃ identity owner : Uuid, owner.Spells storing.owner ∧
      object = ⟨identity,
        (Object.make identity owner storing.name now).metadata.setAll storing.values, content,
        false⟩ := by
  obtain ⟨start, created, made⟩ := bind_eq_ok_iff.1 made
  obtain ⟨middle, set, made⟩ := bind_eq_ok_iff.1 made
  obtain ⟨⟨count, filled⟩, appended, made⟩ := bind_eq_ok_iff.1 made
  obtain rfl := Except.ok.inj made
  obtain ⟨identity, owner, read, rfl⟩ := Object.create_eq_ok created
  obtain rfl := setValues_eq_ok set
  exact ⟨identity, owner, Uuid.spells_of_parse? read, (Object.append_eq_ok appended).2⟩

/-! ## What is composed -/

section

variable (tagged : ∀ entry ∈ storing.metadata, IsTag entry.1)
include tagged

/-- No value is set under a key with a meaning, but for the kind of content. -/
theorem Storing.absent_of_mem_meaningfulKeys (meaningful : key ∈ meaningfulKeys)
    (other : key ≠ Metadata.Key.contentType.text) : ∀ entry ∈ storing.values, entry.1 ≠ key := by
  intro entry member
  rcases List.mem_append.1 member with kind | further
  · obtain ⟨_, _, rfl⟩ := List.mem_map.1 kind
    exact other.symm
  · rintro rfl
    exact (tagged entry further).meaningless meaningful

/-- The last value that is given for a tag is found. -/
theorem Storing.get?_tag (made : storing.objectFrom source now content = .ok object)
    (last : Metadata.LastValue storing.metadata key value) :
    object.metadata.get? key = some value := by
  obtain ⟨identity, owner, _, rfl⟩ := Storing.objectFrom_eq_ok made
  have tag : IsTag key := by
    obtain ⟨front, back, split, _⟩ := last
    exact tagged (key, value) (split ▸ by simp)
  have unprotected : Metadata.isProtected key = false := by
    have apart := tag.meaningless
    simp only [meaningfulKeys, List.mem_cons, not_or] at apart
    simp [Metadata.isProtected, apart]
  have kept : Object.keptValue key value = value := by
    refine if_neg ?_
    rintro rfl
    exact tag.meaningless (by decide)
  have lastOfAll : Metadata.LastValue storing.values key value := by
    obtain ⟨front, back, split, apart⟩ := last
    refine ⟨storing.contentType.toList.map (Metadata.Key.contentType.text, ·) ++ front, back, ?_,
      apart⟩
    rw [Storing.values, split, List.append_assoc]
  show (Metadata.setAll _ storing.values).get? key = some value
  rw [Metadata.get?_setAll, unprotected, Metadata.get?_ofEntries_eq_some_iff.2 lastOfAll,
    Option.map_some, kept]
  rfl

/-- So is the kind of content. -/
theorem Storing.get?_contentType {kind : String}
    (made : storing.objectFrom source now content = .ok object)
    (given : storing.contentType = some kind) :
    object.metadata.get? Metadata.Key.contentType.text = some kind := by
  obtain ⟨identity, owner, _, rfl⟩ := Storing.objectFrom_eq_ok made
  have last : Metadata.LastValue storing.values Metadata.Key.contentType.text kind := by
    refine ⟨[], storing.metadata, by rw [Storing.values, given]; rfl, fun entry member => ?_⟩
    intro same
    exact (tagged entry member).meaningless (same ▸ by decide)
  show (Metadata.setAll _ storing.values).get? Metadata.Key.contentType.text = some kind
  rw [Metadata.get?_setAll, Metadata.get?_ofEntries_eq_some_iff.2 last]
  rfl

/-- A composed object that passes validation is described by its metadata: it has the name and the
owner that are given, and the content of the file. -/
theorem Storing.describes_of_objectFrom
    (made : storing.objectFrom source now content = .ok object)
    (valid : object.validate requireContentType = .ok ()) :
    object.payload = content ∧ object.name = storing.name ∧ ∃ owner : Uuid,
      owner.Spells storing.owner ∧ object.owner = owner.toText ∧
        object.metadata.Describes object.identity storing.name owner := by
  obtain ⟨identity, owner, spells, rfl⟩ := Storing.objectFrom_eq_ok made
  let metadata := (Object.make identity owner storing.name now).metadata.setAll storing.values
  have held : ∀ key ∈ meaningfulKeys, key ≠ Metadata.Key.contentType.text →
      metadata.get? key = (Object.make identity owner storing.name now).metadata.get? key :=
    fun key meaningful other => Metadata.get?_setAll_of_absent _
      (Storing.absent_of_mem_meaningfulKeys tagged meaningful other)
  have hasIdentity : metadata.get? Metadata.Key.id.text = some identity.toText :=
    (held _ (by decide) (by decide)).trans
      (by simp [Object.make, Metadata.get?_assign, Metadata.Key.text])
  have hasName : metadata.get? Metadata.Key.name.text = some storing.name :=
    (held _ (by decide) (by decide)).trans
      (by simp [Object.make, Metadata.get?_assign, Metadata.Key.text])
  have hasOwner : metadata.get? Metadata.Key.owner.text = some owner.toText :=
    (held _ (by decide) (by decide)).trans
      (by simp [Object.make, Metadata.get?_assign, Metadata.Key.text])
  have sameName : (metadata.get? Metadata.Key.name.text).getD "" = storing.name := by
    rw [hasName, Option.getD_some]
  have sameOwner : (metadata.get? Metadata.Key.owner.text).getD "" = owner.toText := by
    rw [hasOwner, Option.getD_some]
  obtain ⟨named, short, _⟩ := Object.validate_eq_ok_iff.1 valid
  rw [Object.name, sameName] at named short
  exact ⟨rfl, sameName, owner, spells, sameOwner, {
    hasIdentity := hasIdentity
    hasName := hasName
    hasOwner := hasOwner
    nonempty := Nat.pos_of_ne_zero fun empty => named (String.utf8ByteSize_eq_zero_iff.1 empty)
    short := short }⟩

end

end Command

end Depot
