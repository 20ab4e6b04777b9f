import Depot.Bucket.Creation
import Depot.Bucket.Selecting
import Depot.Bucket.Streaming
import Depot.Command.Invocation
import Depot.Command.Report
import Depot.FileTree.Engine
import Depot.Reconciliation
import Depot.Settings.Document

/-!
# Running commands

What an invocation does to the files, what it reports, and how it fails. What was
done before a failure stays done. A command opens its bucket for itself and works
on it in sessions of its own.
-/

namespace Depot.Command

/-- What a command finds around it. -/
structure World where
  tree : FileTree
  source : Uuid.Source
  now : Instant
  events : List Event := []
deriving DecidableEq

/-- Why a command fails: what it was doing, outermost first, then what went wrong,
down to the cause. -/
structure Failure where
  /-- The wordings, outermost first. -/
  wordings : List String
deriving DecidableEq, Repr

namespace Failure

/-- A failure in one line. -/
def message (failure : Failure) : String := ": ".intercalate failure.wordings

/-- A failure of a store. -/
def ofStore (error : StoreError) : Failure := ⟨error.chain⟩

/-- Something that is refused before it reaches a store. -/
def ofData (error : DataError) : Failure := ⟨[error.message]⟩

/-- A refusal of a file operation. -/
def ofFile (fault : FileFault) : Failure := ⟨[fault.message]⟩

/-- A failure with what the command was doing. -/
def within (activity : String) (failure : Failure) : Failure := ⟨activity :: failure.wordings⟩

end Failure

/-- Work in a world that may fail. -/
abbrev Task (α : Type) := ExceptT Failure (StateM World) α

namespace Task

variable {α : Type}

/-- Takes a result or fails with what went wrong. -/
def ofExcept {ε : Type} (failure : ε → Failure) (result : Except ε α) : Task α :=
  ExceptT.mk (pure (result.mapError failure))

/-- Says what a task was doing when it fails. -/
def within (activity : String) (task : Task α) : Task α :=
  ExceptT.mk ((Except.mapError (Failure.within activity)) <$> task.run)

/-- The world as it is. -/
def world : Task World := MonadState.get

/-- The files as they are. -/
def tree : Task FileTree := return (← world).tree

/-- Changes the files. -/
def setTree (tree : FileTree) : Task Unit := modify fun world => { world with tree }

/-- Runs a session with the store in the directory at a place. -/
def onStore (place : Place) (session : Session α) : Task α :=
  ExceptT.mk fun world =>
    let store : Store :=
      { contents := world.tree.contentsAt place, keyRule := .pageBound, events := world.events }
    let (result, after) := session.run store
    (result.mapError Failure.ofStore,
      { world with
        tree := world.tree.keepContents place after.contents
        events := after.events })

end Task

/-- The settings in a document. -/
def settingsAt (tree : FileTree) (path : String) : Except StoreError Settings :=
  match tree.read path with
  | .error fault => .error (.io fault.message)
  | .ok content => Settings.ofBytes content

/-- The settings of an invocation. A command is too short for maintenance. -/
def Invocation.readSettings (invocation : Invocation) : Task Settings := do
  let settings ←
    match invocation.settings with
    | none => pure {}
    | some path =>
      Task.within ("loading " ++ path)
        (Task.ofExcept Failure.ofStore (settingsAt (← Task.tree) path))
  return { settings with
    baseDirectory := invocation.directory.getD settings.baseDirectory
    maintenance := { settings.maintenance with enabled := false } }

/-- A bucket and where the files of its store are. -/
structure Opened where
  bucket : Bucket
  /-- The place of its directory. -/
  place : Place

/-- Runs a session with the store of a bucket. -/
def Opened.perform {α : Type} (opened : Opened) (session : Bucket → Session α) : Task α :=
  Task.onStore opened.place (session opened.bucket)

/-- Opens the bucket in the directory of a path. -/
def openBucket (settings : Settings) (path : String) : Task Opened := do
  let (tree, result) := (← Task.tree).openEngine settings.engine path
  Task.setTree tree
  let place ← Task.ofExcept Failure.ofStore result
  let bucket ← Task.onStore place (Bucket.startAt settings path)
  return ⟨bucket, place⟩

/-- Why a command that needs a bucket fails without one. -/
def noBucket : Failure :=
  ⟨["no bucket selected; pass --bucket <path> (create one with \x60quiver init\x60)"]⟩

/-- Why a command fails whose bucket has no directory. -/
def absentBucket (path : String) : Failure := ⟨["bucket " ++ path ++ " does not exist"]⟩

/-- Opens the bucket that an invocation names; its directory must exist. -/
def openNamed (settings : Settings) : Option String → Task Opened
  | none => throw noBucket
  | some path => do
    unless (← Task.tree).isDirectory path do throw (absentBucket path)
    Task.within ("opening bucket " ++ path) (openBucket settings path)

/-- Makes a bucket in a new directory inside the base directory. -/
def makeBucket (settings : Settings) : Task Report := do
  let (tree, made) := (← Task.tree).makeDirectories settings.baseDirectory
  Task.setTree tree
  Task.within ("creating " ++ settings.baseDirectory) (Task.ofExcept Failure.ofFile made)
  let (identity, source) := (← Task.world).source.next
  modify fun world => { world with source }
  let path := Bucket.directory settings identity
  let opened ← openBucket settings path
  opened.perform Bucket.shutdown
  return .initialized path

/-- The object that a command describes, with the content of its file. -/
def compose (storing : Storing) (content : Bytes) : Task Object := do
  let world ← Task.world
  let (made, source) := Object.create world.source world.now storing.name storing.owner
  set { world with source }
  let contentType := storing.contentType.toList.map fun value =>
    (Metadata.Key.contentType.text, value)
  Task.ofExcept Failure.ofData do
    let object ← made
    let object ← (contentType ++ storing.metadata).foldlM
      (fun object (entry : String × String) => object.setValue entry.1 entry.2) object
    let (_, object) ← object.append content
    return object

/-- Stores a file as an object. -/
def store (opened : Opened) (storing : Storing) : Task Report := do
  let content ← Task.within ("reading " ++ storing.file)
    (Task.ofExcept Failure.ofFile ((← Task.tree).read storing.file))
  let object ← compose storing content
  let stored ← opened.perform fun bucket => bucket.create object
  return .stored stored

/-- The identity of the object that is meant. An object that is meant by name
must exist. -/
def resolve (opened : Opened) : Target → Task Uuid
  | .identity text => Task.ofExcept Failure.ofData (Uuid.ofText text)
  | .named name owner => do
    let object ← opened.perform fun bucket => bucket.fetchNamed name owner
    return object.identity

/-- Copies the content of an object to a file, which is emptied first. -/
def copy (opened : Opened) (identity : Uuid) (path : String) : Task Report := do
  let (place, tree) ← Task.within ("creating " ++ path)
    (Task.ofExcept Failure.ofFile ((← Task.tree).create path))
  Task.setTree tree
  let delivery ← opened.perform fun bucket =>
    ExceptT.mk (Except.ok <$> bucket.stream identity Sink.all)
  modify fun world => { world with tree := world.tree.put place (.file delivery.received) }
  let size ← Task.ofExcept Failure.ofStore delivery.result
  return .copied identity size path

/-- Shows an object, or copies its content to a file. -/
def retrieve (opened : Opened) (target : Target) (output : Option String) : Task Report := do
  let identity ← resolve opened target
  match output with
  | some path => copy opened identity path
  | none =>
    let object ← opened.perform fun bucket => bucket.fetch identity
    return .shown object

/-- The selection that a command describes. -/
def Choosing.selection (choosing : Choosing) : Selection :=
  let start : Selection :=
    { connective := if choosing.all then .all else .any
      purpose := if choosing.delete then .delete else .fetch }
  let parameters :=
    choosing.owner.toList.map (Metadata.Key.owner.text, ·)
      ++ choosing.identity.toList.map (Metadata.Key.id.text, ·)
      ++ choosing.name.toList.map (Metadata.Key.name.text, ·)
      ++ choosing.criteria
  parameters.foldl (fun selection entry => selection.parameter entry.1 entry.2) start

/-- Fetches or deletes objects by their metadata. -/
def select (opened : Opened) (choosing : Choosing) : Task Report := do
  match ← opened.perform fun bucket => bucket.run choosing.selection with
  | .fetched objects => return .fetched objects
  | .deleted count => return .deletedMatches count

/-- Deletes an object. -/
def discard (opened : Opened) (target : Target) : Task Report := do
  let identity ← resolve opened target
  opened.perform fun bucket => bucket.delete identity
  return .deleted identity

/-- Reconciles a bucket. -/
def reconcile (opened : Opened) : Task Report := do
  let report ← opened.perform Bucket.reconcile
  opened.perform Bucket.flush
  return .reconciled report

/-- Runs a command with a bucket; making a bucket needs none. -/
def perform (command : Command) (settings : Settings) (bucket : Option String) : Task Report :=
  match command with
  | .init => makeBucket settings
  | .put storing => do store (← openNamed settings bucket) storing
  | .get target output => do retrieve (← openNamed settings bucket) target output
  | .query choosing => do select (← openNamed settings bucket) choosing
  | .remove target => do discard (← openNamed settings bucket) target
  | .repair => do reconcile (← openNamed settings bucket)

/-- Runs an invocation. -/
def Invocation.run (invocation : Invocation) : Task Report := do
  let settings ← invocation.readSettings
  perform invocation.command settings invocation.bucket

end Depot.Command
