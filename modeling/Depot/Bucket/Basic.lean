import Depot.Session

/-!
# Buckets

A bucket is the settings by which a store is used and the place of the store on
disk, if it has one. This module opens and closes buckets; the store itself is
the subject of the sessions that all operations are.
-/

namespace Depot

/-- The settings by which a store is used, and where it is. -/
structure Bucket where
  settings : Settings
  /-- The directory of the engine's files, if the store is on disk. -/
  path : Option String
deriving DecidableEq, Inhabited

namespace Bucket

/-- Opens a bucket over the store of the session. Maintenance must have time
between its passes. -/
def start (settings : Settings) (path : Option String) : Session Bucket := do
  if settings.maintenance.enabled then
    if settings.maintenance.intervalSeconds = 0 then
      Session.fail (.settings .noInterval)
    Session.emit (.maintenanceStarted settings.maintenance)
  Session.emit (.bucketOpened path settings.writeMode settings.maintenance.enabled)
  return ⟨settings, path⟩

/-- The directory of its own that a new bucket gets inside the base directory. -/
def directory (settings : Settings) (identity : Uuid) : String :=
  let base := settings.baseDirectory
  let separator := if base = "" || base.toList.getLast? = some '/' then "" else "/"
  base ++ separator ++ identity.toText

/-- Opens a bucket over the engine's files in a directory, which the engine has just
opened. -/
def startAt (settings : Settings) (directory : String) : Session Bucket := do
  Session.emit (.environmentOpened directory)
  start settings (some directory)

/-- Reports an event of an operation, if operations leave events. -/
def report (bucket : Bucket) (event : Event) : Session Unit :=
  Session.emitIf bucket.settings.logOperations event

/-- Makes buffered writes durable. -/
def flush (_bucket : Bucket) : Session Unit := Session.flush

/-- Gives the bucket up without a flush; maintenance ends. -/
def release (bucket : Bucket) : Session Unit :=
  Session.emitIf bucket.settings.maintenance.enabled .maintenanceStopped

/-- Closes the bucket: maintenance ends, then buffered writes are made durable. -/
def shutdown (bucket : Bucket) : Session Unit := do
  bucket.release
  bucket.flush
  Session.emit (.bucketShutDown bucket.path)

/-- The bucket in one line. -/
def describe (bucket : Bucket) : String :=
  "Bucket \x7b base_path: " ++ Text.quotedOption bucket.path
    ++ ", write_mode: " ++ bucket.settings.writeMode.label
    ++ ", maintenance: " ++ toString bucket.settings.maintenance.enabled ++ " \x7d"

end Bucket

end Depot
