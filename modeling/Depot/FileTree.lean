import Depot.Region
import Std.Data.ExtTreeMap

/-!
# File trees

The files and directories that commands work on, as a value: what is at every
place, what a path leads to, and the few operations on files that commands need.
A path is followed part by part through existing directories, and every
operation says why it refuses one. What a path is made of decides before what it
leads to.
-/

namespace Depot

/-- Why a file operation refuses a path. -/
inductive FileFault where
  | missing
  | present
  /-- Something on the way is no directory. -/
  | notDirectory
  | isDirectory
  | longName
  | zeroCharacter
deriving DecidableEq, Repr

namespace FileFault

/-- What is wrong, in words. -/
def wording : FileFault → String
  | .missing => "No such file or directory"
  | .present => "File exists"
  | .notDirectory => "Not a directory"
  | .isDirectory => "Is a directory"
  | .longName => "File name too long"
  | .zeroCharacter => "file name contained an unexpected NUL byte"

/-- The number by which the system knows a fault, if the system has seen the path. -/
def number? : FileFault → Option Nat
  | .missing => some 2
  | .present => some 17
  | .notDirectory => some 20
  | .isDirectory => some 21
  | .longName => some 36
  | .zeroCharacter => none

/-- The wording of a refusal, with the number of its fault. -/
def message (fault : FileFault) : String :=
  match fault.number? with
  | some number => fault.wording ++ " (os error " ++ toString number ++ ")"
  | none => fault.wording

end FileFault

/-- A place in a tree: the names of the directories that lead there, outermost
first, and the own name. -/
abbrev Place := List String

/-- What is at a place. -/
inductive Node where
  | directory
  | file (content : Bytes)
  /-- A file in which a store's engine keeps what the store holds. -/
  | engine (contents : Contents)
deriving DecidableEq

/-- Files and directories. -/
structure FileTree where
  /-- What is at every place but the outermost, which is a directory. -/
  nodes : Std.ExtTreeMap Place Node := ∅
  workingDirectory : Place := []
deriving DecidableEq

namespace FileTree

/-- What is at a place. -/
def node? (tree : FileTree) (place : Place) : Option Node :=
  if place = [] then some .directory else tree.nodes[place]?

/-- The tree with something else at a place. -/
def put (tree : FileTree) (place : Place) (node : Node) : FileTree :=
  { tree with nodes := tree.nodes.insert place node }

/-- What is put at a place is there; all other places keep what they have. -/
theorem node?_put (tree : FileTree) {place : Place} (inside : place ≠ []) (node : Node)
    (sought : Place) :
    (tree.put place node).node? sought = if sought = place then some node else tree.node? sought := by
  by_cases outermost : sought = []
  · subst outermost
    simp [node?, Ne.symm inside]
  · simp only [node?, put, outermost, if_false, Std.ExtTreeMap.getElem?_insert,
      Std.LawfulEqCmp.compare_eq_iff_eq, eq_comm (a := sought)]

/-- Refuses a place that is no directory. -/
def requireDirectory (tree : FileTree) (place : Place) : Except FileFault Unit :=
  match tree.node? place with
  | some .directory => .ok ()
  | some _ => .error .notDirectory
  | none => .error .missing

/-- The longest name of a file or directory, in bytes. -/
def nameLimit : Nat := 255

/-- The longest path, in bytes. -/
def pathLimit : Nat := 4095

/-- Refuses what cannot be a path, whatever there is. -/
def requirePath (path : String) : Except FileFault Unit :=
  if path.toList.contains '\x00' then .error .zeroCharacter
  else if pathLimit < path.utf8ByteSize then .error .longName
  else .ok ()

/-- One step on a path from a directory. -/
def enter (tree : FileTree) (place : Place) (part : String) : Except FileFault Place := do
  tree.requireDirectory place
  if part = "." then return place
  else if part = ".." then return place.dropLast
  else if nameLimit < part.utf8ByteSize then throw .longName
  else return place ++ [part]

/-- The place to which parts of a path lead from another one. All parts but the
last must be directories. -/
def follow (tree : FileTree) (place : Place) : List String → Except FileFault Place
  | [] => .ok place
  | part :: parts =>
    match tree.enter place part with
    | .error fault => .error fault
    | .ok next => tree.follow next parts

/-- The stretches of characters between slashes. -/
def stretches : List Char → List (List Char)
  | [] => [[]]
  | character :: rest =>
    if character = '/' then [] :: stretches rest
    else
      match stretches rest with
      | [] => [[character]]
      | first :: others => (character :: first) :: others

/-- The parts of a path. -/
def parts (path : String) : List String :=
  ((stretches path.toList).filter (· ≠ [])).map String.ofList

/-- Whether a path says that it leads to a directory. -/
def endsInSlash (path : String) : Bool := path.toList.getLast? = some '/'

/-- Where a path starts. -/
def origin (tree : FileTree) (path : String) : Place :=
  if path.toList.head? = some '/' then [] else tree.workingDirectory

/-- The place to which a path leads, whether there is something or not. -/
def locate (tree : FileTree) (path : String) : Except FileFault Place := do
  requirePath path
  if path = "" then throw .missing
  tree.follow (tree.origin path) (parts path)

/-- Whether a path leads to a directory. -/
def isDirectory (tree : FileTree) (path : String) : Bool :=
  match tree.locate path with
  | .ok place => tree.node? place = some .directory
  | .error _ => false

/-- The content of a file. What an engine keeps is not for others to read. -/
def read (tree : FileTree) (path : String) : Except FileFault Bytes := do
  let place ← tree.locate path
  match tree.node? place with
  | none => throw .missing
  | some .directory => throw .isDirectory
  | some (.file content) => if endsInSlash path then throw .notDirectory else return content
  | some (.engine _) => if endsInSlash path then throw .notDirectory else return []

/-- The place of a file that can be written, in a directory that exists. -/
def locateFile (tree : FileTree) (path : String) : Except FileFault Place := do
  requirePath path
  if endsInSlash path then
    let outer ← tree.follow (tree.origin path) (parts path).dropLast
    tree.requireDirectory outer
    throw .isDirectory
  let place ← tree.locate path
  if tree.node? place = some .directory then throw .isDirectory
  return place

/-- Makes a file without content, or takes the content of the one that is there.
Gives the file's place. -/
def create (tree : FileTree) (path : String) : Except FileFault (Place × FileTree) := do
  let place ← tree.locateFile path
  return (place, tree.put place (.file []))

/-- Makes a directory to which parts of a path lead, where one that is there will
do. -/
def ensureDirectory (tree : FileTree) (origin : Place) (parts : List String) :
    Except FileFault FileTree := do
  let place ← tree.follow origin parts
  match tree.node? place with
  | none => return tree.put place .directory
  | some .directory => return tree
  | some _ => throw .present

/-- Makes every directory through which parts of a path lead, where those that are
there will do. What is made before a refusal stays. -/
def makeEach (tree : FileTree) (place : Place) : List String → FileTree × Except FileFault Unit
  | [] => (tree, .ok ())
  | part :: parts =>
    match tree.enter place part with
    | .error fault => (tree, .error fault)
    | .ok next =>
      match tree.node? next with
      | none => (tree.put next .directory).makeEach next parts
      | some .directory => tree.makeEach next parts
      | some _ => (tree, .error .present)

/-- The parts of a path through which the way to its directory leads. -/
def outerParts (path : String) : List String := ((parts path).filter (· ≠ ".")).dropLast

/-- Makes the directory of a path. Directories that are missing on the way are made
first; a path that ends in a dot leads through its directory, so that one must be
there. -/
def makeDirectories (tree : FileTree) (path : String) : FileTree × Except FileFault Unit :=
  match requirePath path with
  | .error fault => (tree, .error fault)
  | .ok () =>
    let origin := tree.origin path
    match tree.ensureDirectory origin (parts path) with
    | .ok made => (made, .ok ())
    | .error .missing =>
      match tree.makeEach origin (outerParts path) with
      | (made, .error fault) => (made, .error fault)
      | (made, .ok ()) =>
        match made.ensureDirectory origin (parts path) with
        | .ok complete => (complete, .ok ())
        | .error fault => (made, .error fault)
    | .error fault => (tree, .error fault)

/-- What is new or different in a later tree, directories before what is in them. -/
def changes (earlier later : FileTree) : List (Place × Node) :=
  later.nodes.toList.filter fun entry => earlier.nodes[entry.1]? ≠ some entry.2

end FileTree

end Depot
