import Depot.Metadata.Matching
import Depot.Reconciliation.Report
import Depot.Settings
import Depot.StoreError
import Depot.Text.Quoted

/-!
# Events

What a bucket reports while it works. An event is data; its level, wording and
fields are functions of it.
-/

namespace Depot

/-- How much an event matters. -/
inductive Level where
  | debug
  | info
  | warn
deriving DecidableEq, Repr

/-- The name of a level. -/
def Level.text : Level → String
  | .debug => "DEBUG"
  | .info => "INFO"
  | .warn => "WARN"

/-- Something that a bucket reports. -/
inductive Event where
  | environmentOpened (path : String)
  | maintenanceStarted (settings : MaintenanceSettings)
  | maintenanceStopped
  | bucketOpened (path : Option String) (mode : WriteMode) (maintained : Bool)
  | bucketShutDown (path : Option String)
  | objectCreated (identity : Uuid) (name owner : String) (size : Nat)
  | batchCreated (count : Nat)
  | objectFetched (identity : Uuid) (size : Nat)
  | payloadStreamed (identity : Uuid) (size : Nat)
  | matchVanished (identity : Uuid)
  | selectionFetched (count : Nat) (connective : Connective)
  | matchAlreadyDeleted (identity : Uuid)
  | selectionDeleted (count : Nat) (connective : Connective)
  | objectDeleted (identity : Uuid)
  | recordUndecodable (key : Bytes) (cause : DataError)
  /-- A live object's name leads to another object and is left as it is. -/
  | nameHeld (key holder identity : Bytes)
  | repaired (report : Reconciliation.Report)
deriving DecidableEq, Repr

/-- A connective in descriptions. -/
def Connective.label : Connective → String
  | .any => "Or"
  | .all => "And"

namespace Event

/-- How much the event matters. -/
def level : Event → Level
  | .bucketOpened .. | .bucketShutDown _ | .repaired _ => .info
  | .recordUndecodable .. | .nameHeld .. => .warn
  | _ => .debug

/-- The wording of the event, without its particulars. -/
def message : Event → String
  | .environmentOpened _ => "lmdb environment opened"
  | .maintenanceStarted _ => "maintenance task started"
  | .maintenanceStopped => "maintenance task stopped"
  | .bucketOpened .. => "bucket opened"
  | .bucketShutDown _ => "bucket shut down"
  | .objectCreated .. => "created object"
  | .batchCreated _ => "created batch"
  | .objectFetched .. => "fetched object"
  | .payloadStreamed .. => "streamed payload"
  | .matchVanished _ => "matched object vanished before it was fetched"
  | .selectionFetched .. => "query fetched"
  | .matchAlreadyDeleted _ => "matched object already deleted"
  | .selectionDeleted .. => "query deleted"
  | .objectDeleted _ => "deleted object"
  | .recordUndecodable .. => "undecodable metadata record"
  | .nameHeld .. => "name already held by another object; leaving entry unchanged"
  | .repaired _ => "reconciliation repaired bucket"

/-- The particulars of the event by field. -/
def fields : Event → List (String × String)
  | .environmentOpened path => [("path", path)]
  | .maintenanceStarted settings =>
    [("interval_secs", toString settings.intervalSeconds.toNat),
      ("repair", toString settings.repairs)]
  | .maintenanceStopped => []
  | .bucketOpened path mode maintained =>
    [("path", Text.quotedOption path), ("write_mode", mode.label),
      ("maintenance", toString maintained)]
  | .bucketShutDown path => [("path", Text.quotedOption path)]
  | .objectCreated identity name owner size =>
    [("id", identity.toText), ("name", name), ("owner", owner), ("size", toString size)]
  | .batchCreated count => [("count", toString count)]
  | .objectFetched identity size => [("id", identity.toText), ("size", toString size)]
  | .payloadStreamed identity size => [("id", identity.toText), ("bytes", toString size)]
  | .matchVanished identity => [("id", identity.toText)]
  | .selectionFetched count connective =>
    [("matched", toString count), ("action", connective.label)]
  | .matchAlreadyDeleted identity => [("id", identity.toText)]
  | .selectionDeleted count connective =>
    [("removed", toString count), ("action", connective.label)]
  | .objectDeleted identity => [("id", identity.toText)]
  | .recordUndecodable key cause =>
    [("id", Utf8.decodeLossy key), ("error", cause.message)]
  | .nameHeld key holder identity =>
    [("name_key", Utf8.decodeLossy key), ("holder", Utf8.decodeLossy holder),
      ("id", Utf8.decodeLossy identity)]
  | .repaired report =>
    [("orphaned_payloads", toString report.orphanedPayloads),
      ("orphaned_metadata", toString report.orphanedRecords),
      ("restored_names", toString report.restoredNames),
      ("dangling_names", toString report.danglingNames)]

/-- The event in one line. -/
def line (event : Event) : String :=
  event.level.text ++ " " ++ event.message
    ++ String.join (event.fields.map fun field => " " ++ field.1 ++ "=" ++ field.2) ++ "\n"

end Event

end Depot
