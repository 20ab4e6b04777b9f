import Depot.Bucket.Streaming
import Depot.Proofs.Bucket.Lookup
import Depot.Proofs.Sink

/-!
# What streaming delivers

Streaming pours the content that the contents offer under an identity, and a sink may stop at any
point of it. It looks at the record without making an object of it, so beside the content of every
object that can be fetched it delivers content whose record makes up no object.
-/

namespace Depot

namespace Sink

/-- What comes of pouring content into a sink. -/
def deliver (sink : Sink) (content : Bytes) : Bucket.Delivery :=
  match sink.pour 0 content with
  | (.error reason, received) => ⟨.error (.io reason), received, 0⟩
  | (.ok (), received) =>
    match sink.flush with
    | .error reason => ⟨.error (.io reason), received, 1⟩
    | .ok () => ⟨.ok content.length, received, 1⟩

/-- A delivery is a pouring, and a flush if everything was taken. -/
theorem exists_pours_deliver (sink : Sink) (content : Bytes) :
    ∃ portions stop, sink.Pours 0 content portions stop ∧
      (sink.deliver content).received = portions.flatten ∧
      (sink.deliver content).flushes = (if stop = none then 1 else 0) ∧
      (sink.deliver content).result
        = ((ending stop >>= fun _ => sink.flush).mapError .io).map fun _ => content.length := by
  obtain ⟨portions, stop, pours, poured⟩ := sink.exists_pours 0 content
  refine ⟨portions, stop, pours, ?_⟩
  rw [deliver, poured]
  cases stop with
  | some reason => exact ⟨rfl, rfl, rfl⟩
  | none =>
      dsimp only [ending]
      cases sink.flush with
      | error reason => exact ⟨rfl, rfl, rfl⟩
      | ok => exact ⟨rfl, rfl, rfl⟩

theorem received_deliver_isPrefix (sink : Sink) (content : Bytes) :
    (sink.deliver content).received <+: content := by
  obtain ⟨portions, stop, pours, received, _⟩ := sink.exists_pours_deliver content
  rw [received]
  exact pours.isPrefix

/-- A sink is flushed once if it has taken everything, and not at all otherwise. -/
theorem flushes_deliver (sink : Sink) (content : Bytes) :
    (sink.deliver content).flushes
      = if (sink.deliver content).received = content then 1 else 0 := by
  obtain ⟨portions, stop, pours, received, flushes, _⟩ := sink.exists_pours_deliver content
  rw [flushes, received]
  simp only [pours.stop_eq_none_iff]

/-- A delivery succeeds if the sink has taken everything and can be flushed. -/
theorem result_deliver_eq_ok_iff {sink : Sink} {content : Bytes} {count : Nat} :
    (sink.deliver content).result = .ok count ↔
      (sink.deliver content).received = content ∧ sink.flush = .ok () ∧
        count = content.length := by
  obtain ⟨portions, stop, pours, received, _, result⟩ := sink.exists_pours_deliver content
  rw [result, received, ← pours.stop_eq_none_iff]
  cases stop with
  | some reason => simp [ending, bind, Except.bind, Except.mapError, Except.map]
  | none =>
      cases sink.flush <;>
        simp [ending, bind, Except.bind, Except.mapError, Except.map, eq_comm]

/-- A sink that takes everything gets everything. -/
theorem deliver_of_takesAll {sink : Sink} (all : sink.TakesAll) (content : Bytes) :
    sink.deliver content = ⟨.ok content.length, content, 1⟩ := by
  obtain ⟨portions, stop, pours, poured⟩ := sink.exists_pours 0 content
  obtain rfl := pours.stop_of_takesAll all
  rw [deliver, poured, pours.stop_eq_none_iff.1 rfl]
  simp only [ending, all.flushes]

end Sink

namespace Contents

variable {contents : Contents} {identity : Uuid} {content : Bytes}

/-- The content of an object whose record can be read. -/
def readablePayloadOf (contents : Contents) (identity : Uuid) : Except StoreError Bytes := do
  let _ ← contents.metadataOf identity
  contents.payloadOf identity

/-- The record of an identity can be read, and this is its content. -/
def Offers (contents : Contents) (identity : Uuid) (content : Bytes) : Prop :=
  (∃ record metadata, contents.records.get? identity.key = some record ∧
    Metadata.decode record = .ok metadata) ∧ contents.payloads.get? identity.key = some content

theorem payloadOf_eq_ok_iff :
    contents.payloadOf identity = .ok content ↔
      contents.payloads.get? identity.key = some content := by
  rw [payloadOf]
  cases contents.payloads.get? identity.key <;> simp [required]

theorem readablePayloadOf_eq_ok_iff :
    contents.readablePayloadOf identity = .ok content ↔ contents.Offers identity content := by
  rw [readablePayloadOf, bind_eq_ok_iff]
  simp only [metadataOf_eq_ok_iff, payloadOf_eq_ok_iff, Offers, exists_and_right]
  rw [exists_comm]

/-- What comes of pouring the content of an identity into a sink. -/
def delivered (contents : Contents) (identity : Uuid) (sink : Sink) : Bucket.Delivery :=
  match contents.readablePayloadOf identity with
  | .error error => ⟨.error error, [], 0⟩
  | .ok content => sink.deliver content

theorem delivered_of_offers {sink : Sink} (offers : contents.Offers identity content) :
    contents.delivered identity sink = sink.deliver content := by
  rw [delivered, readablePayloadOf_eq_ok_iff.2 offers]

/-- Without metadata nothing is delivered. -/
theorem delivered_of_metadataOf_error {error : StoreError}
    (failed : contents.metadataOf identity = .error error) (sink : Sink) :
    contents.delivered identity sink = ⟨.error error, [], 0⟩ := by
  rw [delivered, readablePayloadOf, failed]
  rfl

/-- Where nothing is offered, nothing is received, and there is no flush. -/
theorem exists_delivered_eq_of_not_offers {sink : Sink}
    (nothing : ¬ ∃ content, contents.Offers identity content) :
    ∃ error, contents.readablePayloadOf identity = .error error ∧
      contents.delivered identity sink = ⟨.error error, [], 0⟩ := by
  rw [delivered]
  cases read : contents.readablePayloadOf identity with
  | error error => exact ⟨error, rfl, rfl⟩
  | ok content => exact absurd ⟨content, readablePayloadOf_eq_ok_iff.1 read⟩ nothing

theorem Offers.unique {other : Bytes} (offers : contents.Offers identity content)
    (otherOffers : contents.Offers identity other) : content = other :=
  Option.some.inj (offers.2.symm.trans otherOffers.2)

theorem received_delivered_isPrefix (contents : Contents) (identity : Uuid) (sink : Sink) :
    (contents.delivered identity sink).received
      <+: (contents.payloads.get? identity.key).getD [] := by
  by_cases offered : ∃ content, contents.Offers identity content
  · obtain ⟨content, offers⟩ := offered
    rw [delivered_of_offers offers, offers.2]
    exact sink.received_deliver_isPrefix content
  · obtain ⟨error, _, same⟩ := exists_delivered_eq_of_not_offers offered
    rw [same]
    exact List.nil_prefix

theorem result_delivered_eq_ok_iff {sink : Sink} {count : Nat} :
    (contents.delivered identity sink).result = .ok count ↔
      ∃ content, contents.Offers identity content ∧
        (contents.delivered identity sink).received = content ∧ sink.flush = .ok () ∧
        count = content.length := by
  by_cases offered : ∃ content, contents.Offers identity content
  · obtain ⟨content, offers⟩ := offered
    rw [delivered_of_offers offers, Sink.result_deliver_eq_ok_iff]
    constructor
    · exact fun taken => ⟨content, offers, taken⟩
    · rintro ⟨other, otherOffers, taken⟩
      obtain rfl := offers.unique otherOffers
      exact taken
  · obtain ⟨error, _, same⟩ := exists_delivered_eq_of_not_offers offered
    rw [same]
    refine iff_of_false (by simp) ?_
    rintro ⟨content, offers, _⟩
    exact offered ⟨content, offers⟩

theorem flushes_delivered (contents : Contents) (identity : Uuid) (sink : Sink) :
    (contents.delivered identity sink).flushes = 1 ∧
        (∃ content, contents.Offers identity content ∧
          (contents.delivered identity sink).received = content) ∨
      (contents.delivered identity sink).flushes = 0 ∧
        ¬ ∃ content, contents.Offers identity content ∧
          (contents.delivered identity sink).received = content := by
  by_cases offered : ∃ content, contents.Offers identity content
  · obtain ⟨content, offers⟩ := offered
    rw [delivered_of_offers offers, Sink.flushes_deliver]
    by_cases whole : (sink.deliver content).received = content
    · exact .inl ⟨if_pos whole, content, offers, whole⟩
    · refine .inr ⟨if_neg whole, ?_⟩
      rintro ⟨other, otherOffers, taken⟩
      exact whole (offers.unique otherOffers ▸ taken)
  · obtain ⟨error, _, same⟩ := exists_delivered_eq_of_not_offers offered
    rw [same]
    refine .inr ⟨rfl, ?_⟩
    rintro ⟨content, offers, _⟩
    exact offered ⟨content, offers⟩

/-! ## Objects of what is offered -/

/-- The record of an identity gives an identity, a name and an owner, if it can be read and there
is content. -/
def MakesUp (contents : Contents) (identity : Uuid) : Prop :=
  ∀ metadata content, contents.metadataOf identity = .ok metadata →
    contents.payloads.get? identity.key = some content →
      metadata.identity?.isSome = true ∧ metadata.has Metadata.Key.name.text = true ∧
        metadata.has Metadata.Key.owner.text = true

/-- Content that is offered is that of the object, unless the record makes up none. -/
theorem Offers.objectOf_cases (offers : contents.Offers identity content) :
    (contents.MakesUp identity ∧
      ∃ object, contents.objectOf identity = .ok object ∧ object.payload = content) ∨
    (¬ contents.MakesUp identity ∧
      ∃ cause, contents.objectOf identity = .error (.undecodable cause)) := by
  obtain ⟨⟨record, metadata, stored, read⟩, held⟩ := offers
  have found := metadataOf_eq_ok_iff.2 ⟨record, stored, read⟩
  rw [objectOf_eq_restore found held]
  cases restored : Object.restore metadata content with
  | ok object =>
      obtain ⟨identified, named, owned, same⟩ := Object.restore_eq_ok_iff.1 restored
      refine .inl ⟨fun other otherContent otherFound _ => ?_, object, rfl, by rw [same]⟩
      obtain rfl := Except.ok.inj (found.symm.trans otherFound)
      exact ⟨Option.isSome_of_eq_some identified, named, owned⟩
  | error cause =>
      refine .inr ⟨fun makesUp => ?_, cause, rfl⟩
      obtain ⟨identified, named, owned⟩ := makesUp metadata content found held
      obtain ⟨own, given⟩ := Option.isSome_iff_exists.1 identified
      have made := (@Object.restore_eq_ok_iff metadata content ⟨own, metadata, content, true⟩).2
        ⟨given, named, owned, rfl⟩
      exact absurd (restored.symm.trans made) (by simp)

/-- Where nothing is offered, there is no object, for the same reason. -/
theorem objectOf_of_readablePayloadOf_error {error : StoreError}
    (failed : contents.readablePayloadOf identity = .error error) :
    contents.MakesUp identity ∧ contents.objectOf identity = .error error ∧
      (error = .notFound identity ∨ ∃ cause, error = .undecodable cause) := by
  cases looked : contents.metadataOf identity with
  | error cause =>
      rw [readablePayloadOf, looked] at failed
      obtain rfl := Except.error.inj failed
      refine ⟨fun metadata _ found => ?_, objectOf_of_metadataOf_error looked,
        metadataOf_eq_error looked⟩
      exact absurd (looked.symm.trans found) (by simp)
  | ok metadata =>
      have missing : contents.payloadOf identity = .error error := by
        rwa [readablePayloadOf, looked] at failed
      have failed : contents.objectOf identity = .error error := by
        rw [objectOf, looked, missing]
        rfl
      cases held : contents.payloads.get? identity.key with
      | some content => exact absurd (missing.symm.trans (payloadOf_eq_ok_iff.2 held)) (by simp)
      | none =>
          rw [payloadOf, held] at missing
          refine ⟨fun _ _ _ found => absurd (held.symm.trans found) (by simp), failed, .inl ?_⟩
          exact (Except.error.inj missing).symm

end Contents

namespace Bucket

variable {circumstances : Circumstances} {before : Contents} {bucket : Bucket}

/-- Content to be streamed is shown. -/
theorem leads_contentToStream (identity : Uuid) :
    Leads circumstances (bucket.contentToStream identity).run before
      (Shows circumstances before (before.readablePayloadOf identity)) := by
  refine Leads.thenShows (leads_metadata identity) fun _ _ => ?_
  exact Leads.andThen (Leads.view? identity.key_ne_nil Shows.refused (leads_require _ _))

/-- Streaming leaves the contents as they are and delivers what they offer, unless the engine
refuses to work. -/
theorem leads_stream_delivered (identity : Uuid) (sink : Sink) :
    Leads circumstances (bucket.stream identity sink) before fun delivery after =>
      after = before ∧ (delivery = before.delivered identity sink ∨
        circumstances.mayRefuse ∧ ∃ reason, delivery = ⟨.error (.engine reason), [], 0⟩) := by
  refine Leads.bind (leads_contentToStream identity) fun result between shows => ?_
  obtain ⟨rfl, shown⟩ := shows
  cases result with
  | error error =>
      refine Leads.pure ⟨rfl, ?_⟩
      rcases shown with same | ⟨may, reason, refusal⟩
      · left
        rw [Contents.delivered, ← same]
      · obtain rfl := Except.error.inj refusal
        exact .inr ⟨may, reason, rfl⟩
  | ok content =>
      have offered : between.delivered identity sink = sink.deliver content := by
        rcases shown with same | ⟨_, _, refusal⟩
        · rw [Contents.delivered, ← same]
        · exact absurd refusal (by simp)
      rw [offered, Sink.deliver]
      dsimp only
      obtain ⟨outcome, received⟩ := sink.pour 0 content
      cases outcome with
      | error reason => exact Leads.pure ⟨rfl, .inl rfl⟩
      | ok =>
          cases sink.flush with
          | error reason => exact Leads.pure ⟨rfl, .inl rfl⟩
          | ok =>
              have reported : Leads circumstances
                  (bucket.report (.payloadStreamed identity content.length)).run between
                  fun _ after => after = between := Leads.emitIf rfl
              exact Leads.bind reported fun _ _ kept => Leads.pure ⟨kept, .inl rfl⟩

theorem leads_stream (identity : Uuid) (sink : Sink) :
    Leads circumstances (bucket.stream identity sink) before fun _ after => after = before :=
  (leads_stream_delivered identity sink).mono fun _ _ delivers => delivers.1

/-- Where no call is refused, streaming delivers what the contents offer, and changes nothing but
the events. -/
theorem exists_run_stream {store : Store} (calm : store.hazard = .none) (bucket : Bucket)
    (identity : Uuid) (sink : Sink) :
    ∃ events, (bucket.stream identity sink).run store
      = (store.contents.delivered identity sink, { store with events }) := by
  obtain ⟨⟨kept, shown⟩, hold⟩ :=
    (@leads_stream_delivered _ _ bucket identity sink).outcome_of_calm calm
  refine ⟨((bucket.stream identity sink).run store).2.events, Prod.ext ?_ ?_⟩
  · rcases shown with same | ⟨never, _⟩
    · exact same
    · exact never.elim
  · have sameRule := hold.keyRule
    have sameHazard := (hold.calm id).trans calm.symm
    generalize ((bucket.stream identity sink).run store).2 = after at kept sameRule sameHazard ⊢
    obtain ⟨contents, keyRule, hazard, events⟩ := after
    obtain rfl : contents = store.contents := kept
    obtain rfl : keyRule = store.keyRule := sameRule
    obtain rfl : hazard = store.hazard := sameHazard
    rfl

/-- Where no call is refused, a sink receives a front of the content, portion by portion, and
nothing if the record cannot be read. Streaming succeeds if the sink takes everything and can be
flushed, and tells the size of the content. The sink is flushed once if it takes everything, and
otherwise not at all. The store stays as it is. -/
theorem stream_delivers_content {store : Store} (calm : store.hazard = .none) (bucket : Bucket)
    (identity : Uuid) (sink : Sink) :
    let delivery := ((bucket.stream identity sink).run store).1
    let after := ((bucket.stream identity sink).run store).2
    delivery.received <+: (store.contents.payloads.get? identity.key).getD [] ∧
    (∀ content, store.contents.Offers identity content →
      ∃ portions stop, sink.Pours 0 content portions stop ∧
        delivery.received = portions.flatten ∧ (stop = none ↔ delivery.received = content) ∧
        ∀ reason, stop = some reason ∨ stop = none ∧ sink.flush = .error reason →
          delivery.result = .error (.io reason)) ∧
    (∀ count, delivery.result = .ok count ↔
      ∃ content, store.contents.Offers identity content ∧ delivery.received = content ∧
        sink.flush = .ok () ∧ count = content.length) ∧
    (∀ count, delivery.result = .ok count →
      ∃ content, ((bucket.payload identity).run.run store).1 = .ok content ∧
        count = content.length ∧ delivery.received = content) ∧
    (delivery.flushes = 1 ∧
        (∃ content, store.contents.Offers identity content ∧ delivery.received = content) ∨
      delivery.flushes = 0 ∧
        ¬ ∃ content, store.contents.Offers identity content ∧ delivery.received = content) ∧
    ((¬ ∃ content, store.contents.Offers identity content) →
      delivery.received = [] ∧ ∃ error, delivery.result = .error error) ∧
    after = { store with events := after.events } := by
  obtain ⟨events, ran⟩ := exists_run_stream calm bucket identity sink
  have payload : ((bucket.payload identity).run.run store).1 = store.contents.payloadOf identity :=
    (leads_payload identity).value_of_calm calm
  simp only [ran, payload, Contents.payloadOf_eq_ok_iff]
  refine ⟨Contents.received_delivered_isPrefix _ _ _, fun content offers => ?_,
    fun _ => Contents.result_delivered_eq_ok_iff, fun count done => ?_,
    Contents.flushes_delivered _ _ _, fun nothing => ?_, True.intro⟩
  · obtain ⟨portions, stop, pours, received, _, result⟩ := sink.exists_pours_deliver content
    rw [Contents.delivered_of_offers offers, result, received]
    refine ⟨portions, stop, pours, rfl, pours.stop_eq_none_iff, ?_⟩
    rintro reason (rfl | ⟨rfl, failed⟩)
    · rfl
    · rw [failed]
      rfl
  · obtain ⟨content, offers, received, _, size⟩ := Contents.result_delivered_eq_ok_iff.1 done
    exact ⟨content, offers.2, size, received⟩
  · obtain ⟨error, _, same⟩ := Contents.exists_delivered_eq_of_not_offers nothing
    rw [same]
    exact ⟨rfl, error, rfl⟩

/-- Content with an empty record is streamed to sinks that take two bytes at a time. One takes all
of it, one takes nothing any more after three bytes, and one cannot be flushed. Nothing is
delivered of content whose record cannot be read. -/
theorem stream_delivers_content_portions :
    let bucket : Bucket := ⟨{}, none⟩
    let store : Store := { contents := {
      payloads := .ofList [(Uuid.key ⟨1⟩, [10, 20, 30, 40, 50]), (Uuid.key ⟨2⟩, [60])]
      records := .ofList [(Uuid.key ⟨1⟩, Metadata.empty.encode), (Uuid.key ⟨2⟩, [255])] } }
    let willing := Sink.bounded (some 2) none .fails (.ok ())
    let stalling := Sink.bounded (some 2) (some 3) .takesNothing (.ok ())
    let clogged := Sink.bounded (some 2) none .fails (.error "clogged")
    let delivery identity sink := ((bucket.stream identity sink).run store).1
    (delivery ⟨1⟩ willing).result = .ok 5 ∧
      ((bucket.payload ⟨1⟩).run.run store).1 = .ok [10, 20, 30, 40, 50] ∧
      (delivery ⟨1⟩ stalling).received = [10, 20, 30] ∧ (delivery ⟨1⟩ stalling).flushes = 0 ∧
      (delivery ⟨1⟩ clogged).received = [10, 20, 30, 40, 50] ∧
      (delivery ⟨1⟩ clogged).flushes = 1 ∧ (∀ count, (delivery ⟨1⟩ clogged).result ≠ .ok count) ∧
      (delivery ⟨2⟩ willing).received = [] := by
  intro bucket store willing stalling clogged delivery
  have offers : store.contents.Offers ⟨1⟩ [10, 20, 30, 40, 50] :=
    ⟨⟨Metadata.empty.encode, Metadata.empty, by decide +kernel, by decide +kernel⟩,
      by decide +kernel⟩
  have unreadable : ¬ ∃ content, store.contents.Offers ⟨2⟩ content := by
    rintro ⟨content, ⟨record, metadata, found, read⟩, _⟩
    have held : store.contents.records.get? (Uuid.key ⟨2⟩) = some [255] := by decide +kernel
    obtain rfl := Option.some.inj (held.symm.trans found)
    have failed : Metadata.decode [255] = .error (.malformed .truncated) := rfl
    exact absurd (failed.symm.trans read) (by simp)
  have part : (delivery ⟨1⟩ stalling).received = [10, 20, 30] := by decide +kernel
  have whole : (delivery ⟨1⟩ clogged).received = [10, 20, 30, 40, 50] := by decide +kernel
  obtain ⟨_, _, ended, paid, _⟩ := @stream_delivers_content store rfl bucket ⟨1⟩ willing
  obtain ⟨_, _, _, _, unflushed, _⟩ := @stream_delivers_content store rfl bucket ⟨1⟩ stalling
  obtain ⟨_, _, failed, _, flushed, _⟩ := @stream_delivers_content store rfl bucket ⟨1⟩ clogged
  obtain ⟨_, _, _, _, _, nothing, _⟩ := @stream_delivers_content store rfl bucket ⟨2⟩ willing
  have done := (ended 5).2 ⟨_, offers, by decide +kernel, rfl, rfl⟩
  obtain ⟨content, held, _, received⟩ := paid 5 done
  obtain rfl : [10, 20, 30, 40, 50] = content := Eq.trans (by decide +kernel) received
  refine ⟨done, held, part, ?_, whole, ?_, fun count same => ?_, (nothing unreadable).1⟩
  · rcases unflushed with ⟨_, content, otherOffers, all⟩ | ⟨never, _⟩
    · obtain rfl := offers.unique otherOffers
      exact absurd (part.symm.trans all) (by decide)
    · exact never
  · rcases flushed with ⟨once, _⟩ | ⟨_, incomplete⟩
    · exact once
    · exact absurd ⟨_, offers, whole⟩ incomplete
  · obtain ⟨_, _, _, sound, _⟩ := (failed count).1 same
    exact absurd sound (by decide)

/-! ## Streaming and fetching -/

/-- A sink that takes everything gets the content of an object just as it is fetched, and where
streaming fails, fetching fails for the same reason: something is missing, or the record cannot be
read. The two agree exactly where a record that can be read gives an identity, a name and an owner.
Where it does not, the content is delivered although the object cannot be fetched. -/
theorem stream_agrees_with_fetch {store : Store} (calm : store.hazard = .none) (bucket : Bucket)
    (identity : Uuid) {sink : Sink} (all : sink.TakesAll) :
    let fetched := ((bucket.fetch identity).run.run store).1
    let delivery := ((bucket.stream identity sink).run store).1
    (∀ object, fetched = .ok object →
      delivery.result = .ok object.payload.length ∧ delivery.received = object.payload) ∧
    (∀ error, delivery.result = .error error →
      fetched = .error error ∧ delivery.received = [] ∧
        (error = .notFound identity ∨ ∃ cause, error = .undecodable cause)) ∧
    (delivery.result = fetched.map (fun object => object.payload.length) ↔
      store.contents.MakesUp identity) ∧
    (¬ store.contents.MakesUp identity → ∃ content cause,
      store.contents.payloads.get? identity.key = some content ∧
        delivery.result = .ok content.length ∧ delivery.received = content ∧
        fetched = .error (.undecodable cause)) := by
  obtain ⟨events, ran⟩ := exists_run_stream calm bucket identity sink
  have fetched : ((bucket.fetch identity).run.run store).1 = store.contents.objectOf identity :=
    (leads_fetch identity).value_of_calm calm
  simp only [ran, fetched]
  by_cases offered : ∃ content, store.contents.Offers identity content
  · obtain ⟨content, offers⟩ := offered
    rw [Contents.delivered_of_offers offers, Sink.deliver_of_takesAll all]
    obtain ⟨makesUp, object, found, rfl⟩ | ⟨unmade, cause, failed⟩ := offers.objectOf_cases
    · rw [found]
      refine ⟨fun other same => ?_, fun error failed => absurd failed (by simp),
        iff_of_true rfl makesUp, fun unmade => absurd makesUp unmade⟩
      obtain rfl := Except.ok.inj same
      exact ⟨rfl, rfl⟩
    · rw [failed]
      exact ⟨fun object made => absurd made (by simp), fun error other => absurd other (by simp),
        iff_of_false (by simp [Except.map]) unmade,
        fun _ => ⟨content, cause, offers.2, rfl, rfl, rfl⟩⟩
  · obtain ⟨error, read, same⟩ := Contents.exists_delivered_eq_of_not_offers offered
    obtain ⟨makesUp, failed, reason⟩ := Contents.objectOf_of_readablePayloadOf_error read
    rw [same, failed]
    refine ⟨fun object made => absurd made (by simp), fun other told => ?_,
      iff_of_true rfl makesUp, fun unmade => absurd makesUp unmade⟩
    obtain rfl := Except.error.inj told
    exact ⟨rfl, rfl, reason⟩

/-- An object is fetched and streamed. Beside it there is content whose record gives no identity,
and an identity whose record cannot be read. -/
theorem stream_agrees_with_fetch_unless_stray :
    let bucket : Bucket := ⟨{}, none⟩
    let whole := Metadata.ofEntries [("id", "00000000-0000-0000-0000-000000000001"), ("name", "n"),
      ("owner", "o")]
    let stray := Metadata.ofEntries [("name", "n"), ("owner", "o")]
    let store : Store := { contents := {
      payloads := .ofList [(Uuid.key ⟨1⟩, [10, 20, 30]), (Uuid.key ⟨2⟩, [60])]
      records := .ofList [(Uuid.key ⟨1⟩, whole.encode), (Uuid.key ⟨2⟩, stray.encode),
        (Uuid.key ⟨4⟩, [255])] } }
    let fetched identity := ((bucket.fetch identity).run.run store).1
    let delivery identity := ((bucket.stream identity .all).run store).1
    (delivery ⟨1⟩).result = .ok 3 ∧ (delivery ⟨1⟩).received = [10, 20, 30] ∧
      store.contents.MakesUp ⟨1⟩ ∧ ¬ store.contents.MakesUp ⟨2⟩ ∧
      (delivery ⟨2⟩).result = .ok 1 ∧ (delivery ⟨2⟩).received = [60] ∧
      fetched ⟨4⟩ = .error (.undecodable (.malformed .truncated)) ∧
      (delivery ⟨4⟩).received = [] := by
  intro bucket whole stray store fetched delivery
  have found : fetched ⟨1⟩ = .ok ⟨⟨1⟩, whole, [10, 20, 30], true⟩ := by decide +kernel
  have streamed : (delivery ⟨1⟩).result = .ok 3 := by decide +kernel
  have unread : (delivery ⟨4⟩).result = .error (.undecodable (.malformed .truncated)) := by
    decide +kernel
  have agrees identity := @stream_agrees_with_fetch store rfl bucket identity .all Sink.takesAll_all
  obtain ⟨delivered, _, alike, _⟩ := agrees ⟨1⟩
  obtain ⟨_, _, unlike, astray⟩ := agrees ⟨2⟩
  obtain ⟨_, same, _⟩ := agrees ⟨4⟩
  have unmade : ¬ store.contents.MakesUp ⟨2⟩ := fun makesUp =>
    absurd (unlike.2 makesUp) (by decide +kernel)
  obtain ⟨content, _, held, result, received, _⟩ := astray unmade
  obtain rfl : [60] = content := Option.some.inj (Eq.trans (by decide +kernel) held)
  exact ⟨streamed, (delivered _ found).2, alike.1 (by decide +kernel), unmade, result, received,
    (same _ unread).1, (same _ unread).2.1⟩

/-- Content of an identity whose record gives none is streamed, although there is no object to be
fetched. -/
theorem exists_stream_of_unfetchable :
    ∃ (bucket : Bucket) (store : Store) (identity : Uuid) (sink : Sink),
      store.hazard = .none ∧ sink.TakesAll ∧
        ((bucket.stream identity sink).run store).1.result = .ok 4 ∧
        ((bucket.stream identity sink).run store).1.received = [100, 97, 116, 97] ∧
        ((bucket.fetch identity).run.run store).1 = .error (.undecodable (.missingField "id")) := by
  let owner := "3f1c9a52-8e0b-4d7a-b6c1-2a9e5f7d0b34"
  let record := Metadata.ofEntries [("name", "n"), ("owner", owner)]
  let contents : Contents := {
    payloads := .ofList [(Uuid.key ⟨1⟩, [100, 97, 116, 97])]
    records := .ofList [(Uuid.key ⟨1⟩, record.encode)] }
  exact ⟨⟨{}, none⟩, { contents }, ⟨1⟩, .all, rfl, Sink.takesAll_all, by decide +kernel,
    by decide +kernel, by decide +kernel⟩

end Bucket

end Depot
