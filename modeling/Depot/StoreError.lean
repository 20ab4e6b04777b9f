import Depot.DataError
import Depot.Region

/-!
# What can go wrong in a store

The causes for which an operation on a store fails, their wording, and the chain
of wordings that a command shows.
-/

namespace Depot

/-- Why settings are refused. -/
inductive SettingsFault where
  | unreadable
  /-- Maintenance is wanted without any time between passes. -/
  | noInterval
deriving DecidableEq, Repr

/-- The wording of a fault in settings. -/
def SettingsFault.message : SettingsFault → String
  | .unreadable => "unreadable document"
  | .noInterval => "maintenance interval must be positive"

/-- Why an operation on a store fails. -/
inductive StoreError where
  /-- What was handed over is refused. -/
  | invalid (cause : DataError)
  | nameTaken (name owner : String)
  /-- A key that should be new has a value already. -/
  | keyTaken (region : Region) (key : Bytes)
  | notFound (identity : Uuid)
  | nameNotFound (name owner : String)
  | engine (reason : String)
  /-- What is stored cannot be read. -/
  | undecodable (cause : DataError)
  | io (reason : String)
  | settings (cause : SettingsFault)
deriving DecidableEq, Repr

namespace StoreError

/-- The wording of a failure. -/
def message : StoreError → String
  | .invalid cause => "validation failed: " ++ cause.message
  | .nameTaken name owner =>
    "object with the name " ++ name ++ " for the owner " ++ owner ++ " exists"
  | .keyTaken region key =>
    "key " ++ Utf8.decodeLossy key ++ " already exists in the " ++ region.text ++ " region"
  | .notFound identity => "object not found: " ++ identity.toText
  | .nameNotFound name owner => "no object named " ++ name ++ " for the owner " ++ owner
  | .engine reason => "storage engine error: " ++ reason
  | .undecodable cause => "serialization error: " ++ cause.message
  | .io reason => "I/O error: " ++ reason
  | .settings cause => "invalid configuration: " ++ cause.message

/-- Whether the failure only says that an object is not there. -/
def isNotFound : StoreError → Bool
  | .notFound _ | .nameNotFound _ _ => true
  | _ => false

/-- The wording of a failure followed by those of the failures behind it. What is
wrong with a document is not told. -/
def chain (error : StoreError) : List String :=
  match error with
  | .invalid cause => [error.message, cause.message]
  | .io reason => [error.message, reason]
  | .settings .unreadable => []
  | _ => [error.message]

end StoreError

end Depot
