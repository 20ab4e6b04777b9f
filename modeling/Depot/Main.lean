import Depot.Command.Execution
import Depot.FileTree.Image
import Std.Time.Format

/-!
# The command line

Runs one invocation on real files: what it may look at is read into a tree, the
invocation is run there, and what has changed is written back.
-/

namespace Depot.Command

/-- The path of a place. -/
def pathOf (place : Place) : String := "/" ++ "/".intercalate place

/-- All places that a path leads through from a place, the last one included. -/
def placesThrough (start : Place) : List String → List Place
  | [] => []
  | part :: parts =>
    let next :=
      if part = "." then start else if part = ".." then start.dropLast else start ++ [part]
    next :: placesThrough next parts

/-- The paths that an invocation may look at. -/
def Invocation.paths (invocation : Invocation) : List String :=
  let ofCommand :=
    match invocation.command with
    | .put storing => [storing.file]
    | .get _ output => output.toList
    | _ => []
  invocation.settings.toList ++ invocation.directory.toList
    ++ invocation.bucket.toList.flatMap (fun path =>
      [FileTree.lockFile, FileTree.engineFile].map (FileTree.inside path))
    ++ ofCommand

/-- What is at a place of the real files. -/
def realNode? (place : Place) : IO (Option Node) := do
  let path := (← IO.currentDir) / pathOf place
  if ← path.isDir then return some .directory
  else if ← path.pathExists then
    return some (Node.ofBytes place (← IO.FS.readBinFile path).toList)
  else return none

/-- A random 128-bit number. -/
def draw : IO (BitVec 128) :=
  return BitVec.ofNat 128 (ofLittleEndian (← IO.getRandomBytes 16).toList)

/-- The time. -/
def now : IO Instant := do
  let time := (← Std.Time.Timestamp.now).val
  return ⟨time.second.val, time.nano.val.toNat⟩

/-- A tree together with what the real files have at some places. -/
def withRealNodes (tree : FileTree) (places : List Place) : IO FileTree :=
  places.foldlM (fun tree place => do
    match ← realNode? place with
    | some node => return tree.put place node
    | none => return tree) tree

/-- A tree together with what the real files have along a path. -/
def withRealPath (tree : FileTree) (path : String) : IO FileTree :=
  withRealNodes tree (placesThrough (tree.origin path) (FileTree.parts path))

/-- The real files around an invocation. Where new buckets go is known once the
settings are. -/
def realWorld (invocation : Invocation) : IO World := do
  let workingDirectory := FileTree.parts (← IO.currentDir).toString
  let around ← withRealNodes { workingDirectory } (placesThrough [] workingDirectory)
  let tree ← invocation.paths.foldlM withRealPath around
  let world : World := { tree, source := { given := [← draw] }, now := ← now }
  match invocation.readSettings world with
  | (.ok settings, _) => return { world with tree := ← withRealPath tree settings.baseDirectory }
  | (.error _, _) => return world

/-- Writes what is new or different. -/
def writeChange (change : Place × Node) : IO Unit :=
  match change with
  | (place, .directory) => IO.FS.createDirAll (pathOf place)
  | (place, .file content) => IO.FS.writeBinFile (pathOf place) ⟨content.toArray⟩
  | (place, .engine contents) => IO.FS.writeBinFile (pathOf place) ⟨contents.image.toArray⟩

/-- Runs an invocation on real files. -/
def Invocation.runReally (invocation : Invocation) : IO UInt32 := do
  let world ← realWorld invocation
  let (result, after) := invocation.run.run world
  (world.tree.changes after.tree).forM writeChange
  let out ← IO.getStdout
  let err ← IO.getStderr
  for event in after.events do
    if invocation.verbose || event.level = .warn then err.putStr event.line
  match result with
  | .ok report =>
    out.putStr (report.render invocation.format (← out.isTty))
    return 0
  | .error failure =>
    err.putStr ("Error: " ++ failure.message ++ "\n")
    return 1

end Depot.Command

/-- Runs the invocation that the words of the command line ask for. -/
def main (words : List String) : IO UInt32 := do
  match Depot.Command.Invocation.ofWords words with
  | .ok invocation => invocation.runReally
  | .error refusal =>
    if refusal.isRequested then
      (← IO.getStdout).putStr refusal.message
      return 0
    else
      (← IO.getStderr).putStr refusal.message
      return 2
