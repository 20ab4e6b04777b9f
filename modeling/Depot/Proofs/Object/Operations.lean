import Depot.Proofs.Spelling
import Depot.Proofs.Object

/-!
# What is asked of an object

The holder of an object may set and remove metadata values under any keys, also under texts that
are those of the store's own keys, add bytes in two ways and seal the object. An operation that is
refused leaves the object as it is. Whatever the sequence of operations, the object keeps its
identity and the time of its making, and its owner stands in canonical form if it spells an
identifier. So an object that passes validation is made up again by its metadata and its content.
A sealed object stays as it is, and every operation that would change it is refused.
-/

namespace Depot.Object

/-- What the holder of an object can ask of it. -/
inductive Operation where
  | setValue (key value : String)
  | removeValue (key : String)
  | append (bytes : Bytes)
  /-- Bytes are to be added to the content as to a stream. -/
  | write (bytes : Bytes)
  | sealing
deriving DecidableEq

namespace Operation

/-- Why an operation is refused. -/
inductive Refusal where
  | plain (cause : DataError)
  | stream (refusal : StreamRefusal)
deriving DecidableEq

/-- What an operation makes of an object. -/
def perform (object : Object) : Operation → Except Refusal Object
  | .setValue key value => (object.setValue key value).mapError .plain
  | .removeValue key => (object.removeValue key).mapError .plain
  | .append bytes => ((object.append bytes).map Prod.snd).mapError .plain
  | .write bytes => ((object.write bytes).map Prod.snd).mapError .stream
  | .sealing => .ok object.sealed

/-- What an operation comes to on a sealed object: all but another sealing is refused. -/
def onSealed (object : Object) : Operation → Except Refusal Object
  | .setValue _ _ | .removeValue _ | .append _ => .error (.plain (.sealed object.identity))
  | .write _ => .error (.stream ⟨.sealed object.identity⟩)
  | .sealing => .ok object

end Operation

/-- The object after an operation, which leaves it as it is if it is refused. -/
def next (object : Object) (operation : Operation) : Object :=
  match operation.perform object with
  | .ok after => after
  | .error _ => object

/-- The object after operations, one after the other. -/
def after (object : Object) (operations : List Operation) : Object := operations.foldl next object

/-- An object is the one that was made with an identity at an instant. -/
structure Steady (identity : Uuid) (now : Instant) (object : Object) : Prop where
  identity : object.identity = identity
  orderly : object.Orderly
  createdAt : object.createdAt? = some now.toText

/-- An object is fit for storing, and its parts make it up again. -/
structure Whole (object : Object) : Prop where
  owner : ∃ owner : Uuid, object.owner = owner.toText
  ownerSize : object.owner.utf8ByteSize = 36
  nonempty : 1 ≤ object.name.utf8ByteSize
  short : object.name.utf8ByteSize ≤ 255
  restored : restore object.metadata object.payload = .ok object.sealed

variable {object after : Object} {operation : Operation} {identity : Uuid} {now : Instant}

/-- The time of making belongs to the store alone. -/
theorem createdAt_isProtected (key : String) :
    ¬ (Metadata.Key.createdAt.text = key ∧ Metadata.isProtected key = false) := by
  rintro ⟨rfl, unprotected⟩
  exact absurd unprotected (by decide)

/-- No change changes the time of making. -/
theorem Change.createdAt?_eq (change : object.Change after) :
    after.createdAt? = object.createdAt? := by
  unfold createdAt?
  cases change with
  | append done => rw [(append_eq_ok done).2]
  | @setValue key value _ done =>
      rw [(setValue_eq_ok done).2, Metadata.get?_set, if_neg (createdAt_isProtected key)]
  | @removeValue key _ done =>
      rw [(removeValue_eq_ok done).2, Metadata.get?_remove, if_neg (createdAt_isProtected key)]
  | sealing => rfl

theorem Change.steady (change : object.Change after) (steady : object.Steady identity now) :
    after.Steady identity now where
  identity := change.identity_eq.trans steady.identity
  orderly := change.orderly steady.orderly
  createdAt := change.createdAt?_eq.trans steady.createdAt

/-- Bytes are added in one way, also where they come as to a stream. -/
theorem exists_append_of_perform {bytes : Bytes}
    (adds : operation = .append bytes ∨ operation = .write bytes)
    (done : operation.perform object = .ok after) :
    ∃ count, object.append bytes = .ok (count, after) := by
  rcases adds with rfl | rfl
  · have appended := mapError_eq_ok_iff.1 done
    cases added : object.append bytes with
    | error cause => simp [added, Except.map] at appended
    | ok pair => simpa [added, Except.map, Prod.ext_iff] using appended
  · have written := mapError_eq_ok_iff.1 done
    unfold write at written
    cases added : object.append bytes with
    | error cause => simp [added, Except.map, Except.mapError] at written
    | ok pair => simpa [added, Except.map, Except.mapError, Prod.ext_iff] using written

/-- What an operation makes of an object is a change of it. -/
theorem change_of_perform (done : operation.perform object = .ok after) : object.Change after := by
  cases operation with
  | setValue key value => exact .setValue (mapError_eq_ok_iff.1 done)
  | removeValue key => exact .removeValue (mapError_eq_ok_iff.1 done)
  | append bytes =>
      obtain ⟨count, added⟩ := exists_append_of_perform (.inl rfl) done
      exact .append added
  | write bytes =>
      obtain ⟨count, added⟩ := exists_append_of_perform (.inr rfl) done
      exact .append added
  | sealing =>
      obtain rfl := Except.ok.inj done
      exact .sealing

/-- An operation sets or removes the value under a key. -/
def Operation.Writes (key : String) : Operation → Prop
  | .setValue written _ | .removeValue written => written = key
  | .append _ | .write _ | .sealing => False

/-- An operation keeps the values under keys that it does not write to. -/
theorem get?_of_perform {key : String} (elsewhere : ¬ operation.Writes key)
    (done : operation.perform object = .ok after) :
    after.metadata.get? key = object.metadata.get? key := by
  cases operation with
  | setValue written value =>
      rw [(setValue_eq_ok (mapError_eq_ok_iff.1 done)).2, Metadata.get?_set]
      exact if_neg fun same => elsewhere same.1.symm
  | removeValue written =>
      rw [(removeValue_eq_ok (mapError_eq_ok_iff.1 done)).2, Metadata.get?_remove]
      exact if_neg fun same => elsewhere same.1.symm
  | append bytes =>
      obtain ⟨count, added⟩ := exists_append_of_perform (.inl rfl) done
      rw [(append_eq_ok added).2]
  | write bytes =>
      obtain ⟨count, added⟩ := exists_append_of_perform (.inr rfl) done
      rw [(append_eq_ok added).2]
  | sealing =>
      obtain rfl := Except.ok.inj done
      rfl

/-- On a sealed object an operation changes nothing, and it is refused if it would. -/
theorem perform_of_sealed (isSealed : object.isSealed = true) (operation : Operation) :
    operation.perform object = operation.onSealed object := by
  have refused : object.requireUnsealed = .error (.sealed object.identity) := if_pos isSealed
  cases operation with
  | setValue => rw [Operation.perform, setValue, refused]; rfl
  | removeValue => rw [Operation.perform, removeValue, refused]; rfl
  | append => rw [Operation.perform, append, refused]; rfl
  | write => rw [Operation.perform, write, append, refused]; rfl
  | sealing => rw [Operation.perform, sealed, ← isSealed]; rfl

/-- An operation leaves a changed object or the same one. -/
theorem change_next_or_eq (object : Object) (operation : Operation) :
    object.Change (object.next operation) ∨ object.next operation = object := by
  unfold next
  cases done : operation.perform object with
  | ok after => exact .inl (change_of_perform done)
  | error refusal => exact .inr rfl

/-- Operations keep the object that was made. -/
theorem Steady.throughout (steady : object.Steady identity now) (operations : List Operation) :
    (object.after operations).Steady identity now := by
  induction operations generalizing object with
  | nil => exact steady
  | cons operation rest inductionHypothesis =>
      refine inductionHypothesis ?_
      rcases object.change_next_or_eq operation with change | same
      · exact change.steady steady
      · rwa [same]

/-- A new object is the one that was made. -/
theorem steady_make (identity owner : Uuid) (name : String) (now : Instant) :
    (make identity owner name now).Steady identity now where
  identity := rfl
  orderly := orderly_make identity owner name now
  createdAt := by simp [createdAt?, make, Metadata.get?_assign]

/-- A sealed object stays as it is. -/
theorem after_of_sealed (isSealed : object.isSealed = true) (operations : List Operation) :
    object.after operations = object := by
  induction operations with
  | nil => rfl
  | cons operation rest inductionHypothesis =>
      have same : object.next operation = object := by
        rcases object.change_next_or_eq operation with change | same
        · exact change.eq_of_sealed isSealed
        · exact same
      exact (congrArg (Object.after · rest) same).trans inductionHypothesis

/-- What validation accepts of the objects that were made is whole. -/
theorem Steady.whole {requireContentType : Bool} (steady : object.Steady identity now)
    (valid : object.validate requireContentType = .ok ()) : object.Whole := by
  obtain ⟨owner, canonical, describes⟩ := steady.orderly.describes valid
  exact {
    owner := ⟨owner, canonical⟩
    ownerSize := by rw [canonical, owner.utf8ByteSize_toText]
    nonempty := describes.nonempty
    short := describes.short
    restored := restore_of_describes describes object.payload }

/-- An object that is created is one that is made. -/
theorem create_eq_ok {source : Uuid.Source} {name owner : String}
    (created : (create source now name owner).1 = .ok object) :
    ∃ identity ownerUuid, Uuid.parse? owner = some ownerUuid ∧
      object = make identity ownerUuid name now := by
  unfold create at created
  split at created
  · exact absurd created (by simp)
  · rename_i ownerUuid read
    exact ⟨source.next.1, ownerUuid, read, (Except.ok.inj created).symm⟩

/-- Whatever is asked of an object after it was created, its metadata gives its identity, the time
of its making, and its owner in canonical form if it spells one. If it then passes validation, its
parts make it up again. A sealed object stays as it is, and what would change it is refused. -/
theorem operations_keep_object :
    (∀ source now name owner object, (create source now name owner).1 = .ok object →
      ∀ operations : List Operation,
        (object.after operations).Steady object.identity now ∧
        ∀ requireContentType, (object.after operations).validate requireContentType = .ok () →
          (object.after operations).Whole) ∧
    ∀ object : Object,
      (object.isSealed = true ∨ ∃ metadata payload, restore metadata payload = .ok object) →
      ∀ operations : List Operation, object.after operations = object ∧
        ∀ operation : Operation, operation.perform object = operation.onSealed object := by
  constructor
  · intro source now name owner object created operations
    obtain ⟨identity, ownerUuid, _, rfl⟩ := create_eq_ok created
    have steady := (steady_make identity ownerUuid name now).throughout operations
    exact ⟨steady, fun _ valid => steady.whole valid⟩
  · intro object origin operations
    have isSealed : object.isSealed = true := by
      rcases origin with isSealed | ⟨metadata, payload, restored⟩
      · exact isSealed
      · obtain ⟨_, rfl⟩ := restore_eq_ok restored
        rfl
    exact ⟨after_of_sealed isSealed operations, perform_of_sealed isSealed⟩

/-- The owner of a report is given in braces and then in capitals, its system fields are written to,
and bytes come in two ways. The report is whole, and once it is sealed all this is refused. -/
theorem operations_keep_object_report :
    let created := (create {} ⟨0, 0⟩ "report" "\x7b00000000-0000-0000-0000-000000000abc\x7d").1
    let operations : List Operation :=
      [.setValue "id" "1", .removeValue "createdAt", .append [1],
        .setValue "owner" "00000000000000000000000000000DEF", .write [2]]
    ∃ object, created = .ok object ∧
      (object.after operations).validate false = .ok () ∧
      (object.after operations).Steady object.identity ⟨0, 0⟩ ∧
      (object.after operations).Whole ∧
      (object.after operations).owner = (⟨0xdef⟩ : Uuid).toText ∧
      (object.after operations).payload = [1, 2] ∧
      (object.after operations).sealed.after operations = (object.after operations).sealed ∧
      Operation.perform (object.after operations).sealed (.write [2])
        = .error (.stream ⟨.sealed object.identity⟩) := by
  intro created operations
  let report := make (Uuid.Source.next {}).1 ⟨0xabc⟩ "report" ⟨0, 0⟩
  have made : created = .ok report := by decide +kernel
  have valid : (report.after operations).validate false = .ok () := by decide +kernel
  obtain ⟨steady, whole⟩ := operations_keep_object.1 {} ⟨0, 0⟩ "report" _ report made operations
  obtain ⟨same, refused⟩ :=
    operations_keep_object.2 (report.after operations).sealed (.inl rfl) operations
  exact ⟨report, made, valid, steady, whole false valid, by decide +kernel, by decide +kernel, same,
    (refused _).trans (by decide +kernel)⟩

end Depot.Object
