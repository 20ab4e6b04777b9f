import Depot.FileTree
import Depot.Settings
import Depot.StoreError

/-!
# Engine files

The directory of a store holds two files of the engine: one that keeps its users
apart, and one in which it keeps what the store holds. Missing ones are made. An
empty file of contents becomes that of an empty store; any other file in its
place is refused. The checks have an order, and what they have made stays when a
later one refuses.
-/

namespace Depot.FileTree

/-- The name of the engine's file that keeps its users apart. -/
def lockFile : String := "lock.mdb"

/-- The name of the engine's file of contents. -/
def engineFile : String := "data.mdb"

/-- The path of a file in the directory of a path. -/
def inside (path name : String) : String := path ++ "/" ++ name

/-- Why the engine refuses to work for nobody. -/
def noReaders : String := "Invalid argument"

/-- Why the engine refuses a memory map for which there is no room. -/
def noRoom : String := "Cannot allocate memory"

/-- Why the engine refuses a file that it has not written. -/
def foreignFile : String := "MDB_INVALID: File is not an LMDB file"

/-- What a store in the directory at a place holds. -/
def contentsAt (tree : FileTree) (place : Place) : Contents :=
  match tree.node? (place ++ [engineFile]) with
  | some (.engine contents) => contents
  | _ => {}

/-- Keeps what a store in the directory at a place holds. -/
def keepContents (tree : FileTree) (place : Place) (contents : Contents) : FileTree :=
  tree.put (place ++ [engineFile]) (.engine contents)

/-- Opens a file for the engine, which makes it if it is missing. Gives the file's
place. -/
def openFile (tree : FileTree) (path : String) : Except StoreError (Place × FileTree) :=
  match tree.locateFile path with
  | .error fault => .error (.engine fault.wording)
  | .ok place =>
    match tree.node? place with
    | none => .ok (place, tree.put place (.file []))
    | some _ => .ok (place, tree)

/-- Takes an open file as the engine's file of contents. -/
def openContents (tree : FileTree) (place : Place) : Except StoreError FileTree :=
  match tree.node? place with
  | some (.engine _) => .ok tree
  | some (.file (_ :: _)) => .error (.engine foreignFile)
  | _ => .ok (tree.put place (.engine {}))

/-- Opens the engine's files in the directory of a path, which must be there. -/
def openEngineFiles (tree : FileTree) (settings : EngineSettings) (path : String) :
    FileTree × Except StoreError Unit :=
  if settings.maxReaders = 0 then (tree, .error (.engine noReaders))
  else
    match tree.openFile (inside path lockFile) with
    | .error error => (tree, .error error)
    | .ok (_, tree) =>
      match tree.openFile (inside path engineFile) with
      | .error error => (tree, .error error)
      | .ok (place, tree) =>
        match tree.openContents place with
        | .error error => (tree, .error error)
        | .ok tree => (tree, if settings.fitsMemory then .ok () else .error (.engine noRoom))

/-- Opens the engine's files in the directory of a path, which is made if it is
missing. Gives the directory's place. -/
def openEngine (tree : FileTree) (settings : EngineSettings) (path : String) :
    FileTree × Except StoreError Place :=
  match tree.makeDirectories path with
  | (made, .error fault) => (made, .error (.io fault.message))
  | (made, .ok ()) =>
    match made.openEngineFiles settings path with
    | (opened, .error error) => (opened, .error error)
    | (opened, .ok ()) =>
      (opened, (opened.locate path).mapError fun fault => .engine fault.wording)

end Depot.FileTree
