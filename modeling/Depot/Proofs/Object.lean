import Depot.Bucket.Entry
import Depot.Proofs.Metadata.Record
import Depot.Proofs.Results
import Depot.Proofs.Uuid

/-!
# Objects that can be made

An object in someone's hands was made new or restored from what was stored, and
changed since only by appending, setting, removing and sealing. Such an object, as
long as it is unsealed, carries its own identity, and its owner in canonical form if
the owner spells an identifier at all. Hence what validation lets through has a
record that says whose it is.
-/

namespace Depot

namespace Metadata

/-- A value that is set is found, and other keys keep their values. -/
theorem get?_assign (metadata : Metadata) (key value sought : String) :
    (metadata.assign key value).get? sought
      = if sought = key then some value else metadata.get? sought :=
  OrderedMap.get?_insert_eq _ _ _ _

/-- A value that is set is found unless its key belongs to the store alone. -/
theorem get?_set (metadata : Metadata) (key value sought : String) :
    (metadata.set key value).get? sought
      = if sought = key ∧ isProtected key = false then some value else metadata.get? sought := by
  unfold set
  cases isProtected key
  · simp [get?_assign]
  · simp

/-- A value that is removed is not found unless its key belongs to the store alone. -/
theorem get?_remove (metadata : Metadata) (key sought : String) :
    (metadata.remove key).get? sought
      = if sought = key ∧ isProtected key = false then none else metadata.get? sought := by
  unfold remove
  cases isProtected key
  · simpa using! OrderedMap.get?_erase_eq metadata.values key sought
  · simp

/-- The identity belongs to the store alone. -/
theorem id_isProtected (key : String) : ¬ (Key.id.text = key ∧ isProtected key = false) := by
  rintro ⟨rfl, unprotected⟩
  exact absurd unprotected (by decide)

/-- The identity that a bag gives, if it gives one in any spelling. -/
def identity? (metadata : Metadata) : Option Uuid :=
  (metadata.get? Key.id.text).bind Uuid.parse?

/-- A bag gives the identity, the name and the owner of an object that may be stored. -/
structure Describes (metadata : Metadata) (identity : Uuid) (name : String) (owner : Uuid) :
    Prop where
  hasIdentity : metadata.get? Key.id.text = some identity.toText
  hasName : metadata.get? Key.name.text = some name
  hasOwner : metadata.get? Key.owner.text = some owner.toText
  nonempty : 0 < name.utf8ByteSize
  short : name.utf8ByteSize ≤ Object.nameLimit

/-- A bag that describes an object gives its identity. -/
theorem Describes.identity?_eq {metadata : Metadata} {identity : Uuid} {name : String}
    {owner : Uuid} (describes : metadata.Describes identity name owner) :
    metadata.identity? = some identity := by
  rw [identity?, describes.hasIdentity, Option.bind_some, Uuid.parse?_toText]

/-- A bag describes one object at most. -/
theorem Describes.unique {metadata : Metadata} {identity otherIdentity : Uuid}
    {name otherName : String} {owner otherOwner : Uuid}
    (describes : metadata.Describes identity name owner)
    (other : metadata.Describes otherIdentity otherName otherOwner) :
    identity = otherIdentity ∧ name = otherName ∧ owner = otherOwner :=
  ⟨Uuid.toText_injective (Option.some.inj (describes.hasIdentity.symm.trans other.hasIdentity)),
    Option.some.inj (describes.hasName.symm.trans other.hasName),
    Uuid.toText_injective (Option.some.inj (describes.hasOwner.symm.trans other.hasOwner))⟩

end Metadata

namespace Object

/-- What the holder of an object can do to it. -/
inductive Change (object : Object) : Object → Prop where
  | append {bytes : Bytes} {count : Nat} {after : Object}
      (done : object.append bytes = .ok (count, after)) : Change object after
  | setValue {key value : String} {after : Object}
      (done : object.setValue key value = .ok after) : Change object after
  | removeValue {key : String} {after : Object}
      (done : object.removeValue key = .ok after) : Change object after
  | sealing : Change object object.sealed

/-- An object that came about by the operations on objects. Texts and bags in memory
have sizes that fit a machine word. -/
inductive Made : Object → Prop where
  | make {identity owner : Uuid} {name : String} {now : Instant}
      (fits : (make identity owner name now).metadata.FitsWords) :
      Made (make identity owner name now)
  | restore {metadata : Metadata} {payload : Bytes} {object : Object}
      (done : Object.restore metadata payload = .ok object) (fits : metadata.FitsWords) :
      Made object
  | change {object after : Object} (prior : Made object) (change : object.Change after)
      (fits : after.metadata.FitsWords) : Made after

/-- The metadata carries the object's own identity, and any owner that spells an
identifier in canonical form. -/
structure Orderly (object : Object) : Prop where
  identity : object.metadata.get? Metadata.Key.id.text = some object.identity.toText
  /-- The owner is canonical or no identifier. -/
  owner : ∀ text, object.metadata.get? Metadata.Key.owner.text = some text →
    Uuid.isSpelling text = true → ∃ owner : Uuid, text = owner.toText

/-- A kept owner is canonical if it spells an identifier. -/
theorem canonical_of_isSpelling_canonicalise {text : String}
    (spells : Uuid.isSpelling (Uuid.canonicalise text) = true) :
    ∃ owner : Uuid, Uuid.canonicalise text = owner.toText := by
  unfold Uuid.canonicalise at spells ⊢
  split
  · exact ⟨_, rfl⟩
  · rename_i unreadable
    simp [unreadable, Uuid.isSpelling] at spells

theorem orderly_make (identity owner : Uuid) (name : String) (now : Instant) :
    (make identity owner name now).Orderly where
  identity := by simp [make, Metadata.get?_assign, Metadata.Key.text]
  owner := by
    intro text found _
    have held : (make identity owner name now).metadata.get? Metadata.Key.owner.text
        = some owner.toText := by simp [make, Metadata.get?_assign, Metadata.Key.text]
    exact ⟨owner, Option.some.inj (found.symm.trans held)⟩

/-- What is done once an object is known to be unsealed. -/
theorem requireUnsealed_then_eq_ok_iff {α : Type} {object : Object} {value result : α} :
    (do object.requireUnsealed; return value : Except DataError α) = .ok result
      ↔ object.isSealed = false ∧ value = result := by
  unfold requireUnsealed
  cases object.isSealed <;> simp [bind, Except.bind, pure, Except.pure]

/-- Bytes are added only to an unsealed object, and to its content only. -/
theorem append_eq_ok {object after : Object} {bytes : Bytes} {count : Nat}
    (done : object.append bytes = .ok (count, after)) :
    object.isSealed = false ∧ after = { object with payload := object.payload ++ bytes } := by
  obtain ⟨unsealed, same⟩ := requireUnsealed_then_eq_ok_iff.1 done
  exact ⟨unsealed, (Prod.mk.inj same).2.symm⟩

theorem setValue_eq_ok {object after : Object} {key value : String}
    (done : object.setValue key value = .ok after) :
    object.isSealed = false ∧
      after = { object with metadata := object.metadata.set key (keptValue key value) } := by
  obtain ⟨unsealed, rfl⟩ := requireUnsealed_then_eq_ok_iff.1 done
  exact ⟨unsealed, rfl⟩

theorem removeValue_eq_ok {object after : Object} {key : String}
    (done : object.removeValue key = .ok after) :
    object.isSealed = false ∧ after = { object with metadata := object.metadata.remove key } := by
  obtain ⟨unsealed, rfl⟩ := requireUnsealed_then_eq_ok_iff.1 done
  exact ⟨unsealed, rfl⟩

/-- No change changes the identity. -/
theorem Change.identity_eq {object after : Object} (change : object.Change after) :
    after.identity = object.identity := by
  cases change with
  | append done => rw [(append_eq_ok done).2]
  | setValue done => rw [(setValue_eq_ok done).2]
  | removeValue done => rw [(removeValue_eq_ok done).2]
  | sealing => rfl

/-- What is unsealed after a change was so before. -/
theorem Change.unsealed {object after : Object} (change : object.Change after)
    (unsealed : after.isSealed = false) : object.isSealed = false := by
  cases change with
  | append done => exact (append_eq_ok done).1
  | setValue done => exact (setValue_eq_ok done).1
  | removeValue done => exact (removeValue_eq_ok done).1
  | sealing => exact absurd unsealed (by simp [sealed])

/-- A sealed object does not change. -/
theorem Change.eq_of_sealed {object after : Object} (change : object.Change after)
    (isSealed : object.isSealed = true) : after = object := by
  have refused : object.isSealed ≠ false := by simp [isSealed]
  cases change with
  | append done => exact absurd (append_eq_ok done).1 refused
  | setValue done => exact absurd (setValue_eq_ok done).1 refused
  | removeValue done => exact absurd (removeValue_eq_ok done).1 refused
  | sealing => rw [sealed, ← isSealed]

/-- A change keeps an object orderly. -/
theorem Change.orderly {object after : Object} (change : object.Change after)
    (orderly : object.Orderly) : after.Orderly := by
  cases change with
  | append done =>
      rw [(append_eq_ok done).2]
      exact ⟨orderly.identity, orderly.owner⟩
  | @setValue key value _ done =>
      rw [(setValue_eq_ok done).2]
      refine ⟨?_, fun text found spells => ?_⟩
      · rw [Metadata.get?_set, if_neg (Metadata.id_isProtected key)]
        exact orderly.identity
      · rw [Metadata.get?_set] at found
        split at found
        · rename_i written
          have kept : keptValue key value = Uuid.canonicalise value := if_pos written.1.symm
          obtain rfl := Option.some.inj found
          rw [kept] at spells ⊢
          exact canonical_of_isSpelling_canonicalise spells
        · exact orderly.owner text found spells
  | @removeValue key _ done =>
      rw [(removeValue_eq_ok done).2]
      refine ⟨?_, fun text found spells => ?_⟩
      · rw [Metadata.get?_remove, if_neg (Metadata.id_isProtected key)]
        exact orderly.identity
      · rw [Metadata.get?_remove] at found
        split at found
        · exact absurd found (by simp)
        · exact orderly.owner text found spells
  | sealing => exact ⟨orderly.identity, orderly.owner⟩

/-- Metadata makes up an object with any content if it gives an identity, which is then the
object's, and has a name and an owner. The object is sealed. -/
theorem restore_eq_ok_iff {metadata : Metadata} {payload : Bytes} {object : Object} :
    restore metadata payload = .ok object ↔
      metadata.identity? = some object.identity ∧ metadata.has Metadata.Key.name.text = true ∧
        metadata.has Metadata.Key.owner.text = true ∧
        object = ⟨object.identity, metadata, payload, true⟩ := by
  unfold restore Metadata.identity?
  cases metadata.get? Metadata.Key.id.text with
  | none => simp [throw, throwThe, MonadExceptOf.throw]
  | some text =>
      cases parsed : Uuid.parse? text with
      | none => simp [Uuid.ofText, parsed, bind, Except.bind]
      | some identity =>
          by_cases named : metadata.has Metadata.Key.name.text <;>
            by_cases owned : metadata.has Metadata.Key.owner.text <;>
            simp [Uuid.ofText, parsed, named, owned, bind, Except.bind, pure, Except.pure, throw,
              throwThe, MonadExceptOf.throw]
          constructor
          · rintro rfl
            exact ⟨rfl, rfl⟩
          · rintro ⟨rfl, same⟩
            exact same.symm

/-- A restored object is sealed, and made of what was stored. -/
theorem restore_eq_ok {metadata : Metadata} {payload : Bytes} {object : Object}
    (done : restore metadata payload = .ok object) :
    ∃ identity, object = ⟨identity, metadata, payload, true⟩ :=
  ⟨object.identity, (restore_eq_ok_iff.1 done).2.2.2⟩

/-- Metadata that describes an object makes it up again with any content. -/
theorem restore_of_describes {metadata : Metadata} {identity : Uuid} {name : String} {owner : Uuid}
    (describes : metadata.Describes identity name owner) (payload : Bytes) :
    restore metadata payload = .ok ⟨identity, metadata, payload, true⟩ :=
  restore_eq_ok_iff.2 ⟨describes.identity?_eq, Metadata.has_iff.2 ⟨_, describes.hasName⟩,
    Metadata.has_iff.2 ⟨_, describes.hasOwner⟩, rfl⟩

/-- An object that can be made is orderly while it is unsealed. -/
theorem Made.orderly {object : Object} (made : object.Made) (unsealed : object.isSealed = false) :
    object.Orderly := by
  induction made with
  | make => exact orderly_make _ _ _ _
  | restore done =>
      obtain ⟨_, rfl⟩ := restore_eq_ok done
      exact absurd unsealed (by simp)
  | change prior change _ inductionHypothesis =>
      exact change.orderly (inductionHypothesis (change.unsealed unsealed))

/-- The record of an object that can be made can be read back. -/
theorem Made.fits {object : Object} (made : object.Made) : object.metadata.FitsWords := by
  cases made with
  | make fits => exact fits
  | restore done fits =>
      obtain ⟨_, rfl⟩ := restore_eq_ok done
      exact fits
  | change _ _ fits => exact fits

/-- Validation accepts an object with a name within the limit, an owner that spells an
identifier, its own identity, and a kind of content where one is required. -/
theorem validate_eq_ok_iff {object : Object} {requireContentType : Bool} :
    object.validate requireContentType = .ok () ↔
      object.name ≠ "" ∧ object.name.utf8ByteSize ≤ nameLimit ∧ object.owner ≠ "" ∧
        Uuid.isSpelling object.owner = true ∧
        (object.metadata.get? Metadata.Key.id.text).bind Uuid.parse? = some object.identity ∧
        (requireContentType = true → object.contentType?.getD "" ≠ "") := by
  unfold validate
  simp only [bind, Except.bind, pure, Except.pure, throw, throwThe, MonadExceptOf.throw]
  by_cases nameless : object.name = ""
  · simp [nameless]
  by_cases long : nameLimit < object.name.utf8ByteSize
  · simp [nameless, long, Nat.not_le.2 long]
  by_cases ownerless : object.owner = ""
  · simp [nameless, long, ownerless]
  by_cases spelled : Uuid.isSpelling object.owner = true
  swap
  · simp [nameless, long, ownerless, spelled]
  cases object.metadata.get? Metadata.Key.id.text with
  | none => simp [nameless, long, ownerless, spelled]
  | some text =>
      by_cases own : Uuid.parse? text = some object.identity <;>
        cases requireContentType <;>
        by_cases kind : object.contentType?.getD "" = "" <;>
        simp [nameless, long, ownerless, spelled, own, kind, Nat.not_lt.1 long]

/-- Validation accepts an orderly object only if its metadata describes it. -/
theorem Orderly.describes {object : Object} {requireContentType : Bool} (orderly : object.Orderly)
    (valid : object.validate requireContentType = .ok ()) :
    ∃ owner : Uuid, object.owner = owner.toText ∧
      object.metadata.Describes object.identity object.name owner := by
  obtain ⟨named, short, owned, spelled, _, _⟩ := validate_eq_ok_iff.1 valid
  have hasName : object.metadata.get? Metadata.Key.name.text = some object.name := by
    unfold Object.name at named ⊢
    cases found : object.metadata.get? Metadata.Key.name.text with
    | none => simp [found] at named
    | some name => rfl
  have hasOwner : object.metadata.get? Metadata.Key.owner.text = some object.owner := by
    unfold Object.owner at owned ⊢
    cases found : object.metadata.get? Metadata.Key.owner.text with
    | none => simp [found] at owned
    | some owner => rfl
  obtain ⟨owner, canonical⟩ := orderly.owner _ hasOwner spelled
  refine ⟨owner, canonical, ?_⟩
  exact {
    hasIdentity := orderly.identity
    hasName := hasName
    hasOwner := canonical ▸ hasOwner
    nonempty := Nat.pos_of_ne_zero fun empty => named (String.utf8ByteSize_eq_zero_iff.1 empty)
    short := short }

/-! ## Objects for single runs -/

/-- A report. -/
def report : Object := make ⟨1⟩ ⟨3⟩ "report" ⟨0, 0⟩

/-- Another object of the same name and owner. -/
def secondReport : Object := make ⟨2⟩ ⟨3⟩ "report" ⟨0, 0⟩

/-- An object of the same owner under another name. -/
def summary : Object := make ⟨4⟩ ⟨3⟩ "summary" ⟨0, 0⟩

/-- One of another owner. -/
def notice : Object := make ⟨5⟩ ⟨6⟩ "notice" ⟨0, 0⟩

/-- The report with another name and with content. -/
def renamedReport : Object :=
  { report with metadata := report.metadata.set Metadata.Key.name.text "summary", payload := [50] }

theorem made_report : report.Made := .make ⟨by decide +kernel, by decide +kernel⟩

theorem made_secondReport : secondReport.Made := .make ⟨by decide +kernel, by decide +kernel⟩

theorem made_summary : summary.Made := .make ⟨by decide +kernel, by decide +kernel⟩

theorem made_notice : notice.Made := .make ⟨by decide +kernel, by decide +kernel⟩

/-- The report gets its other name. -/
theorem change_report : report.Change { report with metadata := renamedReport.metadata } :=
  @Change.setValue _ Metadata.Key.name.text "summary" _ rfl

/-- The renamed report gets its content. -/
theorem change_renamedReport :
    Change { report with metadata := renamedReport.metadata } renamedReport :=
  @Change.append _ [50] _ _ rfl

theorem made_renamedReport : renamedReport.Made := by
  have fits : renamedReport.metadata.FitsWords := ⟨by decide +kernel, by decide +kernel⟩
  exact .change (.change made_report change_report fits) change_renamedReport fits

end Object

end Depot
