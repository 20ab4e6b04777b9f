import Depot.Settings
import Depot.StoreError
import Depot.Toml.Document

/-!
# Settings documents

Settings written as a TOML document. Every group of settings is a table of named
fields, or an array of their values in order. What is not given keeps its
default, and a name that no field has is refused.
-/

namespace Depot

namespace Settings

/-- A field of a group of settings. -/
structure Field (σ : Type) where
  name : String
  /-- Sets the field to a value, if the value fits. -/
  set : Toml.Value → σ → Option σ

/-- A field whose values `read` understands. -/
def Field.of {σ α : Type} (name : String) (read : Toml.Value → Option α) (update : α → σ → σ) :
    Field σ :=
  ⟨name, fun value group => (read value).map (update · group)⟩

/-- A truth value. -/
def boolean? : Toml.Value → Option Bool
  | .boolean value => some value
  | _ => none

/-- A text. -/
def text? : Toml.Value → Option String
  | .text content => some content
  | _ => none

/-- A whole number from zero up to `limit`, the limit excluded. -/
def number? (limit : Nat) : Toml.Value → Option Nat
  | .integer value => if 0 ≤ value ∧ value < limit then some value.toNat else none
  | _ => none

/-- A 64-bit word. -/
def longWord? (value : Toml.Value) : Option UInt64 := (number? UInt64.size value).map UInt64.ofNat

/-- A 32-bit word. -/
def shortWord? (value : Toml.Value) : Option UInt32 := (number? UInt32.size value).map UInt32.ofNat

/-- Whether a value holds nothing: an array without items or a table without
members. -/
def isVoid : Toml.Value → Bool
  | .array items => items.isEmpty
  | .table _ members => members.isEmpty
  | _ => false

/-- A choice by keyword: the keyword itself, or a table that has nothing but the
keyword, with nothing in it. -/
def choice? {α : Type} (choices : List (String × α)) : Toml.Value → Option α
  | .text keyword => choices.lookup keyword
  | .table _ [(keyword, value)] => if isVoid value then choices.lookup keyword else none
  | _ => none

/-- The write modes by keyword. -/
def writeModes : List (String × WriteMode) :=
  [WriteMode.atomic, .independent].map fun mode => (mode.keyword, mode)

/-- The durabilities by keyword. -/
def syncModes : List (String × SyncMode) :=
  [SyncMode.full, .noMetaSync, .noSync].map fun mode => (mode.keyword, mode)

/-- Sets fields by name. -/
def setNamed {σ : Type} (fields : List (Field σ)) (group : σ) (members : Toml.Members) : Option σ :=
  members.foldlM (fun group (name, value) => do
    let field ← fields.find? fun field => field.name = name
    field.set value group) group

/-- Sets fields by position; values after the last field are passed over. -/
def setInOrder {σ : Type} (fields : List (Field σ)) (group : σ) (values : List Toml.Value) :
    Option σ :=
  (fields.zip values).foldlM (fun group (field, value) => field.set value group) group

/-- A group of settings with what the value gives, and defaults for the rest. -/
def group? {σ : Type} (fields : List (Field σ)) (defaults : σ) : Toml.Value → Option σ
  | .table _ members => setNamed fields defaults members
  | .array values => setInOrder fields defaults values
  | .tables earlier last =>
    setInOrder fields defaults ((last :: earlier).reverse.map (Toml.Value.table .header))
  | _ => none

/-- The fields of the engine's settings. -/
def engineFields : List (Field EngineSettings) := [
  .of "map_size" longWord? fun value group => { group with mapSize := value },
  .of "max_readers" shortWord? fun value group => { group with maxReaders := value },
  .of "sync" (choice? syncModes) fun value group => { group with sync := value }]

/-- The fields of the settings for maintenance. -/
def maintenanceFields : List (Field MaintenanceSettings) := [
  .of "enabled" boolean? fun value group => { group with enabled := value },
  .of "interval_secs" longWord? fun value group => { group with intervalSeconds := value },
  .of "repair" boolean? fun value group => { group with repairs := value }]

/-- The fields of a bucket's settings. -/
def fields : List (Field Settings) := [
  .of "base_dir" text? fun value group => { group with baseDirectory := value },
  .of "write_mode" (choice? writeModes) fun value group => { group with writeMode := value },
  .of "require_content_type" boolean? fun value group => { group with requireContentType := value },
  .of "log_operations" boolean? fun value group => { group with logOperations := value },
  .of "engine" (group? engineFields {}) fun value group => { group with engine := value },
  .of "maintenance" (group? maintenanceFields {})
    fun value group => { group with maintenance := value }]

/-- The settings that a document describes. -/
def ofDocument (text : String) : Except StoreError Settings :=
  match (Toml.document? text).bind fun table => setNamed fields {} table.members with
  | some settings => .ok settings
  | none => .error (.settings .unreadable)

/-- The settings that the bytes of a document describe. -/
def ofBytes (bytes : Bytes) : Except StoreError Settings :=
  match Utf8.decode bytes with
  | .ok text => ofDocument text
  | .error _ => .error (.io "stream did not contain valid UTF-8")

end Settings

end Depot
