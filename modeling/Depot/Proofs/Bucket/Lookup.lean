import Depot.Bucket.Lookup
import Depot.Proofs.Object
import Depot.Proofs.Session

/-!
# What finding objects shows

Every look at a store has a counterpart that is a function of the contents alone.
`Shows` says that work leaves the contents as they are and gives the value of its
counterpart, unless a call is refused; a look that is made of looks shows what its
parts show, one after the other.
-/

namespace Depot

variable {α β : Type} {circumstances : Circumstances} {before : Contents}

/-- The outcome of a look: the contents are as before, and the result is `value` unless
the engine refused to work. -/
def Shows (circumstances : Circumstances) (before : Contents) (value : Except StoreError α)
    (result : Except StoreError α) (after : Contents) : Prop :=
  after = before ∧ (result = value ∨
    circumstances.mayRefuse ∧ ∃ reason, result = .error (.engine reason))

namespace Shows

theorem of_eq (value : Except StoreError α) : Shows circumstances before value value before :=
  ⟨rfl, .inl rfl⟩

theorem refused {value : Except StoreError α} (may : circumstances.mayRefuse) (reason : String) :
    Shows circumstances before value (.error (.engine reason)) before :=
  ⟨rfl, .inr ⟨may, reason, rfl⟩⟩

/-- What a look gives is the value. -/
theorem eq_of_ok {value : Except StoreError α} {found : α} {after : Contents}
    (shows : Shows circumstances before value (.ok found) after) : value = .ok found := by
  rcases shows.2 with same | ⟨_, _, refusal⟩
  · exact same.symm
  · exact absurd refusal (by simp)

end Shows

/-- A look after a look. -/
theorem Leads.thenShows {session : Session α} {rest : α → Session β} {value : Except StoreError α}
    {next : α → Except StoreError β}
    (first : Leads circumstances session.run before (Shows circumstances before value))
    (second : ∀ found, value = .ok found →
      Leads circumstances (rest found).run before (Shows circumstances before (next found))) :
    Leads circumstances (session >>= rest).run before
      (Shows circumstances before (value >>= next)) := by
  refine andThen (first.mono fun result after shows => ?_)
  obtain rfl := shows.1
  cases result with
  | ok found =>
      obtain rfl := shows.eq_of_ok
      exact second found rfl
  | error error =>
      rcases shows.2 with same | ⟨may, reason, refusal⟩
      · rw [← same]
        exact Shows.of_eq _
      · rw [refusal]
        exact Shows.refused may reason

/-- Where no call is refused, a look gives the value that it shows. -/
theorem Leads.value_of_calm {store : Store} {session : Session α} {value : Except StoreError α}
    (calm : store.hazard = .none)
    (leads : Leads (.reliable store.keyRule) session.run store.contents
      (Shows (.reliable store.keyRule) store.contents value)) :
    (session.run.run store).1 = value := by
  rcases (leads.outcome_of_calm calm).1.2 with same | ⟨refused, _⟩
  · exact same
  · exact refused.elim

/-- Without a hazard, a look gives the value that it shows. -/
theorem Leads.value_of_calm_run {store : Store} {session : Session α} {value : Except StoreError α}
    (leads : Leads (.reliable store.keyRule) session.run store.contents
      (Shows (.reliable store.keyRule) store.contents value)) :
    (session.run.run { store with hazard := .none }).1 = value :=
  @value_of_calm _ { store with hazard := .none } session value rfl leads

/-- A look at a calm engine in memory gives the value that it shows. -/
theorem Leads.value_inMemory {contents : Contents} {events : List Event} {session : Session α}
    {value : Except StoreError α}
    (leads : Leads (.reliable .unrestricted) session.run contents
      (Shows (.reliable .unrestricted) contents value)) :
    (session.run.run { contents, events }).1 = value :=
  @value_of_calm_run _ { contents, events } session value leads

namespace Contents

/-- The value that must be there for an object to be there. -/
def required (missing : StoreError) : Option α → Except StoreError α
  | some value => .ok value
  | none => .error missing

/-- The metadata of an object. -/
def metadataOf (contents : Contents) (identity : Uuid) : Except StoreError Metadata := do
  let record ← required (.notFound identity) (contents.records.get? identity.key)
  (Metadata.decode record).mapError .undecodable

/-- The content of an object. -/
def payloadOf (contents : Contents) (identity : Uuid) : Except StoreError Bytes :=
  required (.notFound identity) (contents.payloads.get? identity.key)

/-- The object of an identity. -/
def objectOf (contents : Contents) (identity : Uuid) : Except StoreError Object := do
  let metadata ← contents.metadataOf identity
  let payload ← contents.payloadOf identity
  (Object.restore metadata payload).mapError .undecodable

/-- The identity that a name leads to, for an owner in canonical form. -/
def identityOf (contents : Contents) (name owner : String) : Except StoreError Uuid :=
  if Object.nameLimit < name.utf8ByteSize then .error (.nameNotFound name owner)
  else do
    let key ← required (.nameNotFound name owner) (contents.names.get? (nameKey name owner))
    (Uuid.ofKey key).mapError .undecodable

/-- The identity that a name leads to, for an owner in any spelling. -/
def resolved (contents : Contents) (name owner : String) : Except StoreError Uuid := do
  let owner ← (Uuid.normalise Metadata.Key.owner.text owner).mapError .invalid
  contents.identityOf name owner

/-- The object of a name. -/
def objectNamed (contents : Contents) (name owner : String) : Except StoreError Object := do
  contents.objectOf (← contents.resolved name owner)

/-- The metadata found is that of the record. -/
theorem metadataOf_eq_ok_iff {contents : Contents} {identity : Uuid} {metadata : Metadata} :
    contents.metadataOf identity = .ok metadata ↔
      ∃ record, contents.records.get? identity.key = some record ∧
        Metadata.decode record = .ok metadata := by
  unfold metadataOf
  cases contents.records.get? identity.key with
  | none => simp [required, bind, Except.bind]
  | some record =>
      cases decoded : Metadata.decode record <;>
        simp [required, bind, Except.bind, Except.mapError, decoded]

/-- Without a record there is no object. -/
theorem metadataOf_of_missing {contents : Contents} {identity : Uuid}
    (missing : contents.records.get? identity.key = none) :
    contents.metadataOf identity = .error (.notFound identity) := by
  rw [metadataOf, missing]
  rfl

/-- Metadata is missing or cannot be read. -/
theorem metadataOf_eq_error {contents : Contents} {identity : Uuid} {error : StoreError}
    (failed : contents.metadataOf identity = .error error) :
    error = .notFound identity ∨ ∃ cause, error = .undecodable cause := by
  cases found : contents.records.get? identity.key with
  | none => exact .inl (Except.error.inj (failed.symm.trans (metadataOf_of_missing found)))
  | some record =>
      rw [metadataOf, found] at failed
      cases decoded : Metadata.decode record <;>
        simp [required, bind, Except.bind, Except.mapError, decoded] at failed
      exact .inr ⟨_, failed.symm⟩

/-- An object whose metadata cannot be had cannot be had for the same reason. -/
theorem objectOf_of_metadataOf_error {contents : Contents} {identity : Uuid} {error : StoreError}
    (failed : contents.metadataOf identity = .error error) :
    contents.objectOf identity = .error error := by
  rw [objectOf, failed]
  rfl

/-- An object is made up of its metadata and its content. -/
theorem objectOf_eq_restore {contents : Contents} {identity : Uuid} {metadata : Metadata}
    {payload : Bytes} (found : contents.metadataOf identity = .ok metadata)
    (held : contents.payloads.get? identity.key = some payload) :
    contents.objectOf identity = (Object.restore metadata payload).mapError .undecodable := by
  rw [objectOf, payloadOf, found, held]
  rfl

/-- An object is found by identity if its record and its content make one up. -/
theorem objectOf_eq_ok_iff {contents : Contents} {identity : Uuid} {object : Object} :
    contents.objectOf identity = .ok object ↔
      ∃ metadata payload, contents.metadataOf identity = .ok metadata ∧
        contents.payloads.get? identity.key = some payload ∧
        Object.restore metadata payload = .ok object := by
  unfold objectOf payloadOf
  cases contents.metadataOf identity with
  | error => simp [bind, Except.bind]
  | ok metadata =>
      cases contents.payloads.get? identity.key with
      | none => simp [required, bind, Except.bind]
      | some payload =>
          cases restored : Object.restore metadata payload <;>
            simp [required, bind, Except.bind, Except.mapError, restored]

/-- A name leads to an identity if it is within the limit and its entry holds the
identity's key, under the canonical form of the owner. -/
theorem resolved_eq_ok_iff {contents : Contents} {name owner : String} {identity : Uuid} :
    contents.resolved name owner = .ok identity ↔
      ∃ ownerUuid key, Uuid.parse? owner = some ownerUuid ∧ name.utf8ByteSize ≤ Object.nameLimit ∧
        contents.names.get? (nameKey name ownerUuid.toText) = some key ∧
        Uuid.ofKey key = .ok identity := by
  unfold resolved Uuid.normalise identityOf
  cases Uuid.parse? owner with
  | none => simp [bind, Except.bind, Except.mapError]
  | some ownerUuid =>
      by_cases long : Object.nameLimit < name.utf8ByteSize
      · simp [bind, Except.bind, Except.mapError, long, Nat.not_le.2 long]
      · cases held : contents.names.get? (nameKey name ownerUuid.toText) with
        | none => simp [required, bind, Except.bind, Except.mapError, long, held]
        | some key =>
            cases read : Uuid.ofKey key <;>
              simp [required, bind, Except.bind, Except.mapError, long, Nat.not_lt.1 long, held,
                read]

/-- The object of a name is that of the identity that the name leads to. -/
theorem objectNamed_eq_ok_iff {contents : Contents} {name owner : String} {object : Object} :
    contents.objectNamed name owner = .ok object ↔
      ∃ identity, contents.resolved name owner = .ok identity ∧
        contents.objectOf identity = .ok object :=
  bind_eq_ok_iff

end Contents

namespace Bucket

variable {bucket : Bucket}

/-- A required value is shown. -/
theorem leads_require (missing : StoreError) (value : Option α) :
    Leads circumstances (require missing value).run before
      (Shows circumstances before (Contents.required missing value)) := by
  cases value with
  | none => exact Leads.fail (Shows.of_eq _)
  | some value => exact Leads.give (Shows.of_eq _)

/-- Metadata is shown. -/
theorem leads_metadata (identity : Uuid) :
    Leads circumstances (bucket.metadata identity).run before
      (Shows circumstances before (before.metadataOf identity)) := by
  refine Leads.andThen (Leads.value? identity.key_ne_nil Shows.refused ?_)
  exact Leads.thenShows (leads_require _ _) fun _ _ => Leads.ofExcept (Shows.of_eq _)

theorem leads_payload (identity : Uuid) :
    Leads circumstances (bucket.payload identity).run before
      (Shows circumstances before (before.payloadOf identity)) :=
  Leads.andThen (Leads.value? identity.key_ne_nil Shows.refused (leads_require _ _))

/-- Reports show nothing. -/
theorem leads_report_then {event : Event} (value : α) :
    Leads circumstances (do bucket.report event; return value : Session α).run before
      (Shows circumstances before (.ok value)) :=
  Leads.andThen (Leads.emitIf (Leads.give (Shows.of_eq _)))

/-- An object is shown. -/
theorem leads_fetch (identity : Uuid) :
    Leads circumstances (bucket.fetch identity).run before
      (Shows circumstances before (before.objectOf identity)) := by
  refine Leads.thenShows (leads_metadata identity) fun metadata _ => ?_
  refine Leads.thenShows (leads_payload identity) fun payload _ => ?_
  rw [← bind_pure ((Object.restore metadata payload).mapError StoreError.undecodable)]
  refine Leads.thenShows (Leads.ofExcept (Shows.of_eq _)) fun object _ => ?_
  exact leads_report_then object

/-- The identity that a name leads to is shown. -/
theorem leads_resolve (name owner : String) :
    Leads circumstances (bucket.resolve name owner).run before
      (Shows circumstances before (before.resolved name owner)) := by
  refine Leads.thenShows (Leads.ofExcept (Shows.of_eq _)) fun owner _ => ?_
  unfold Contents.identityOf
  split
  · exact Leads.andThen (Leads.fail (Shows.of_eq _))
  · refine Leads.andThen (Leads.value? (nameKey_ne_nil name owner) Shows.refused ?_)
    exact Leads.thenShows (leads_require _ _) fun _ _ => Leads.ofExcept (Shows.of_eq _)

/-- The object of a name is shown. -/
theorem leads_fetchNamed (name owner : String) :
    Leads circumstances (bucket.fetchNamed name owner).run before
      (Shows circumstances before (before.objectNamed name owner)) :=
  Leads.thenShows (leads_resolve name owner) fun identity _ => leads_fetch identity

theorem leads_contains (identity : Uuid) :
    Leads circumstances (bucket.contains identity).run before
      (Shows circumstances before (.ok (before.records.get? identity.key).isSome)) :=
  Leads.holds identity.key_ne_nil Shows.refused (Shows.of_eq _)

theorem leads_size :
    Leads circumstances bucket.size.run before
      (Shows circumstances before (.ok before.records.size)) :=
  Leads.count Shows.refused (Shows.of_eq _)

theorem leads_isEmpty :
    Leads circumstances bucket.isEmpty.run before
      (Shows circumstances before (.ok (decide (before.records.size = 0)))) :=
  Leads.thenShows leads_size fun _ _ => Leads.give (Shows.of_eq _)

end Bucket

end Depot
