import Depot.Bucket.Lookup
import Depot.Sink

/-!
# Streaming content

The content of an object is poured into a sink straight from the engine. The
record is read first, so an object without a usable record delivers nothing, and
the sink is flushed once, after it has taken everything.
-/

namespace Depot.Bucket

/-- What comes of pouring content into a sink. -/
structure Delivery where
  /-- The size of the content, or the failure. -/
  result : Except StoreError Nat
  received : Bytes
  flushes : Nat

/-- The content of an object whose record can be read. -/
def contentToStream (bucket : Bucket) (identity : Uuid) : Session Bytes := do
  let _ ← bucket.metadata identity
  require (.notFound identity) (← Session.view? .payload identity.key)

/-- Pours the content of an object into a sink. -/
def stream (bucket : Bucket) (identity : Uuid) (sink : Sink) : StateM Store Delivery := do
  match ← (bucket.contentToStream identity).run with
  | .error error => return ⟨.error error, [], 0⟩
  | .ok content =>
    match sink.pour 0 content with
    | (.error reason, received) => return ⟨.error (.io reason), received, 0⟩
    | (.ok (), received) =>
      match sink.flush with
      | .error reason => return ⟨.error (.io reason), received, 1⟩
      | .ok () =>
        let _ ← (bucket.report (.payloadStreamed identity content.length)).run
        return ⟨.ok content.length, received, 1⟩

end Depot.Bucket
