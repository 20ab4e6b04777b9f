/-!
# Settings of a bucket

How a bucket writes, what it demands of objects, and how its engine and its
maintenance are tuned. Numbers are machine words, as the engine takes them.
-/

namespace Depot

/-- How an operation is spread over engine commits. -/
inductive WriteMode where
  /-- One commit covers all regions of an operation. -/
  | atomic
  /-- Every region and step has a commit of its own; a failure in between leaves
  the regions out of step until they are reconciled. -/
  | independent
deriving DecidableEq, Repr, Inhabited

/-- A write mode in descriptions. -/
def WriteMode.label : WriteMode → String
  | .atomic => "Atomic"
  | .independent => "Independent"

/-- A write mode in settings documents. -/
def WriteMode.keyword : WriteMode → String
  | .atomic => "atomic"
  | .independent => "independent"

/-- How durable engine commits are. -/
inductive SyncMode where
  | full
  /-- The flush of the engine's own metadata is left out. -/
  | noMetaSync
  | noSync
deriving DecidableEq, Repr, Inhabited

/-- A durability in settings documents. -/
def SyncMode.keyword : SyncMode → String
  | .full => "full"
  | .noMetaSync => "no_meta_sync"
  | .noSync => "no_sync"

/-- The tuning of the engine. -/
structure EngineSettings where
  /-- The size of the memory map in bytes. -/
  mapSize : UInt64 := 1073741824
  maxReaders : UInt32 := 126
  sync : SyncMode := .full
deriving DecidableEq, Repr, Inhabited

/-- The longest stretch of addresses that is free for a memory map: the lower two
thirds of the 2⁴⁷ addresses of a process, up to where its program begins. -/
def mapLimit : UInt64 := 0x555555554000

/-- Whether there is room in memory for the map. -/
def EngineSettings.fitsMemory (settings : EngineSettings) : Bool := settings.mapSize ≤ mapLimit

/-- The tuning of periodic maintenance. -/
structure MaintenanceSettings where
  enabled : Bool := true
  intervalSeconds : UInt64 := 300
  repairs : Bool := false
deriving DecidableEq, Repr, Inhabited

/-- The time between two passes in milliseconds. -/
def MaintenanceSettings.intervalMilliseconds (settings : MaintenanceSettings) : Nat :=
  settings.intervalSeconds.toNat * 1000

/-- The settings of a bucket. -/
structure Settings where
  /-- The directory in which every new bucket gets one of its own. -/
  baseDirectory : String := "/var/lib/quiver"
  writeMode : WriteMode := .atomic
  requireContentType : Bool := false
  logOperations : Bool := true
  engine : EngineSettings := {}
  maintenance : MaintenanceSettings := {}
deriving DecidableEq, Repr, Inhabited

/-- The default settings with another base directory. -/
def Settings.inDirectory (directory : String) : Settings := { baseDirectory := directory }

end Depot
