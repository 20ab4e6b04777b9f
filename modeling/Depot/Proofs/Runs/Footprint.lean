import Depot.Proofs.Bucket.Footprint
import Depot.Proofs.Runs.Modes

/-!
# What a request uses of the engine

For a request a bucket builds the name keys of the objects that are stored, of the name that is
asked for, and of the records of objects that are removed; a reconciliation builds those of all
records. Apart from identities these are the keys that a request uses, unless it is a
reconciliation, which visits all regions and commits what it plans.
-/

namespace Depot

namespace Bucket

/-- The name keys that a bucket builds for a request. -/
inductive Builds (bucket : Bucket) (contents : Contents) : Request → Bytes → Prop where
  | stored {request : Request} {object : Object} {entry : Entry} (among : object ∈ request.objects)
      (prepared : Entry.prepare bucket.settings.requireContentType object = .ok entry) :
      Builds bucket contents request entry.nameKey
  | fetched {name owner canonical : String}
      (accepted : Uuid.normalise Metadata.Key.owner.text owner = .ok canonical)
      (short : name.utf8ByteSize ≤ Object.nameLimit) :
      Builds bucket contents (.fetchNamed name owner) (nameKey name canonical)
  | deleted {name owner canonical : String}
      (accepted : Uuid.normalise Metadata.Key.owner.text owner = .ok canonical)
      (short : name.utf8ByteSize ≤ Object.nameLimit) :
      Builds bucket contents (.deleteNamed name owner) (nameKey name canonical)
  | claimed {request : Request} {identity : Uuid} {metadata : Metadata} {key : Bytes}
      (target : identity ∈ request.targets contents)
      (found : contents.metadataOf identity = .ok metadata)
      (claimed : claimedName metadata = some key) : Builds bucket contents request key
  | recorded {identity record key : Bytes} (held : contents.records.get? identity = some record)
      (claimed : Reconciliation.claimOfRecord? record = some key) :
      Builds bucket contents .reconcile key

end Bucket

/-- A footprint allows what a request is about. -/
structure Footprint.CoversRequest (footprint : Footprint) (bucket : Bucket) (before : Contents)
    (request : Request) : Prop where
  identities : footprint.CoversIdentities
  names : ∀ key, bucket.Builds before request key → footprint.CoversName key
  entries : ∀ object ∈ request.objects, object.Storable bucket.settings.requireContentType →
    footprint.CoversEntry object.entry
  visits : request = .reconcile → ∀ region, footprint.visits region
  planned : request = .reconcile →
    ∀ write ∈ (Reconciliation.plan before).batch.writes, footprint.writes write

namespace Bucket

variable {circumstances : Circumstances} {footprint : Footprint} {bucket : Bucket}
  {before : Contents} {request : Request} {key : Bytes}

/-- No key that is built is empty. -/
theorem Builds.ne_nil (builds : bucket.Builds before request key) : key ≠ [] := by
  cases builds with
  | stored => exact nameKey_ne_nil _ _
  | fetched => exact nameKey_ne_nil _ _
  | deleted => exact nameKey_ne_nil _ _
  | claimed _ _ claimed => exact ne_nil_of_claimedName claimed
  | @recorded _ record _ _ claimed =>
      unfold Reconciliation.claimOfRecord? at claimed
      split at claimed
      · exact absurd claimed (by simp)
      · unfold Reconciliation.claim? at claimed
        dsimp only at claimed
        split at claimed
        · exact absurd claimed (by simp)
        · rw [← Option.some.inj claimed]
          exact nameKey_ne_nil _ _

/-- A request keeps to every footprint that allows what it is about. -/
theorem uses_reply (covers : footprint.CoversRequest bucket before request) :
    Uses circumstances footprint (bucket.reply request) before := by
  have identities := covers.identities
  have names : before.ClaimsOnly (request.targets before) footprint.CoversName :=
    fun identity target metadata found key claimed =>
      covers.names key (.claimed target found claimed)
  cases request with
  | create object => exact .map _ (uses_create (covers.entries object List.mem_cons_self))
  | createBatch objects => exact .map _ (uses_createBatch covers.entries)
  | metadata identity => exact .map _ (uses_metadata identities identity)
  | payload identity => exact .map _ (uses_payload identities identity)
  | fetch identity => exact .map _ (uses_fetch identities identity)
  | fetchNamed name owner =>
      exact .map _ (uses_fetchNamed identities fun canonical accepted short =>
        (covers.names _ (.fetched accepted short)).looks)
  | contains identity =>
      exact .map _ (.holds identity.key_ne_nil (identities.looks .metadata (by decide) identity))
  | size => exact .map _ (.count identities.visits)
  | isEmpty => exact .map _ (uses_isEmpty identities)
  | stream identity sink => exact .map _ (uses_stream identities identity sink)
  | run selection => exact .map _ (uses_run identities names)
  | fetchSelected selection => exact .map _ (uses_fetchSelected identities selection)
  | deleteSelected selection => exact .map _ (uses_deleteSelected identities names)
  | delete identity => exact .map _ (uses_delete identities names)
  | deleteNamed name owner =>
      have looks : ∀ canonical, Uuid.normalise Metadata.Key.owner.text owner = .ok canonical →
          name.utf8ByteSize ≤ Object.nameLimit → footprint.looks .name (nameKey name canonical) :=
        fun canonical accepted short => (covers.names _ (.deleted accepted short)).looks
      exact .map _ (uses_deleteNamed identities looks names)
  | flush => exact .map _ (.call .flush .empty)
  | reconcile => exact .map _ (uses_reconcile (covers.visits rfl) (covers.planned rfl))

end Bucket

end Depot
