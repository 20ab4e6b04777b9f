import Depot.FileTree
import Depot.Proofs.Results

/-!
# Where paths lead

A path is followed from directory to directory, so where it leads is told by the directories of
a tree and by where relative paths start. Trees that agree on those agree on every path that leads
somewhere, whatever is in their files. What is put at a place that is no directory, and makes none
of it, leaves all ways as they are.
-/

namespace Depot

/-- What others can read of a node. -/
def Node.content? : Node → Option Bytes
  | .directory => none
  | .file content => some content
  | .engine _ => some []

namespace FileTree

variable {tree left middle right : FileTree} {place next sought : Place} {node : Node}
  {path part : String} {content : Bytes}

/-- What others can read at a place. -/
def contentAt? (tree : FileTree) (place : Place) : Option Bytes :=
  (tree.node? place).bind Node.content?

/-! ## Steps and ways -/

theorem requireDirectory_eq_ok_iff :
    tree.requireDirectory place = .ok () ↔ tree.node? place = some .directory := by
  unfold requireDirectory
  cases tree.node? place with
  | none => simp
  | some node => cases node <;> simp

/-- A step leads from a directory to where its part says. -/
theorem enter_of_directory (directory : tree.node? place = some .directory) (part : String) :
    tree.enter place part =
      if part = "." then .ok place
      else if part = ".." then .ok place.dropLast
      else if nameLimit < part.utf8ByteSize then .error .longName
      else .ok (place ++ [part]) := by
  unfold enter
  rw [requireDirectory_eq_ok_iff.2 directory]
  rfl

/-- A step is made in a directory. -/
theorem directory_of_enter (entered : tree.enter place part = .ok next) :
    tree.node? place = some .directory := by
  obtain ⟨_, required, _⟩ := bind_eq_ok_iff.1 entered
  exact requireDirectory_eq_ok_iff.1 required

/-- A path that is made of two is followed first along the one and then along the other. -/
theorem follow_append (tree : FileTree) (place : Place) (parts others : List String) :
    tree.follow place (parts ++ others)
      = (tree.follow place parts).bind fun next => tree.follow next others := by
  induction parts generalizing place with
  | nil => rfl
  | cons part rest inductionHypothesis =>
      rw [List.cons_append, follow, follow]
      cases tree.enter place part with
      | error fault => rfl
      | ok next => exact inductionHypothesis next

/-- Relative paths start at the same place and the same places are directories, so that paths
lead the same ways. -/
structure SameWays (left right : FileTree) : Prop where
  start : right.workingDirectory = left.workingDirectory
  directories : ∀ place, right.node? place = some .directory ↔ left.node? place = some .directory

theorem SameWays.refl (tree : FileTree) : tree.SameWays tree := ⟨rfl, fun _ => .rfl⟩

theorem SameWays.symm (same : left.SameWays right) : right.SameWays left :=
  ⟨same.start.symm, fun place => (same.directories place).symm⟩

theorem SameWays.trans (first : left.SameWays middle) (second : middle.SameWays right) :
    left.SameWays right :=
  ⟨second.start.trans first.start,
    fun place => (second.directories place).trans (first.directories place)⟩

/-- What is put in the place of something that is no directory, and is none itself, changes no
way. -/
theorem sameWays_put (before : tree.node? place ≠ some .directory) (after : node ≠ .directory) :
    tree.SameWays (tree.put place node) := by
  have inside : place ≠ [] := by
    rintro rfl
    exact before rfl
  refine ⟨rfl, fun sought => ?_⟩
  rw [node?_put tree inside]
  by_cases same : sought = place
  · rw [if_pos same, same]
    exact iff_of_false (fun equal => after (Option.some.inj equal)) before
  · rw [if_neg same]

theorem SameWays.enter (same : left.SameWays right) (entered : left.enter place part = .ok next) :
    right.enter place part = .ok next := by
  have directory := directory_of_enter entered
  rw [enter_of_directory directory] at entered
  rw [enter_of_directory ((same.directories place).2 directory), entered]

theorem SameWays.follow {parts : List String} (same : left.SameWays right)
    (followed : left.follow place parts = .ok sought) :
    right.follow place parts = .ok sought := by
  induction parts generalizing place with
  | nil => exact followed
  | cons part rest inductionHypothesis =>
      rw [FileTree.follow] at followed ⊢
      cases entered : left.enter place part with
      | error fault =>
          rw [entered] at followed
          exact absurd followed (by simp)
      | ok next =>
          rw [entered] at followed
          rw [same.enter entered]
          exact inductionHypothesis followed

theorem SameWays.origin (same : left.SameWays right) (path : String) :
    right.origin path = left.origin path := by
  rw [FileTree.origin, FileTree.origin, same.start]

/-! ## Places of paths -/

/-- A path leads somewhere if it can be one, is not empty and can be followed. -/
theorem locate_eq_ok_iff : tree.locate path = .ok place ↔
    requirePath path = .ok () ∧ path ≠ "" ∧
      tree.follow (tree.origin path) (parts path) = .ok place := by
  unfold locate
  cases requirePath path with
  | error fault => simp [bind, Except.bind]
  | ok => by_cases empty : path = "" <;> simp [bind, Except.bind, empty, throw, throwThe,
      MonadExceptOf.throw]

theorem SameWays.locate (same : left.SameWays right) (located : left.locate path = .ok place) :
    right.locate path = .ok place := by
  obtain ⟨possible, nonempty, followed⟩ := locate_eq_ok_iff.1 located
  refine locate_eq_ok_iff.2 ⟨possible, nonempty, ?_⟩
  rw [same.origin]
  exact same.follow followed

theorem SameWays.locate_eq_ok_iff (same : left.SameWays right) :
    right.locate path = .ok place ↔ left.locate path = .ok place :=
  ⟨same.symm.locate, same.locate⟩

/-- A file can be written where a path leads, unless that is a directory or the path says so. -/
theorem locateFile_eq_ok_iff : tree.locateFile path = .ok place ↔
    endsInSlash path = false ∧ tree.locate path = .ok place ∧
      tree.node? place ≠ some .directory := by
  unfold locateFile
  cases possible : requirePath path with
  | error fault => simp [bind, Except.bind, FileTree.locate, possible]
  | ok =>
      cases endsInSlash path with
      | true =>
          refine iff_of_false (fun found => ?_) (by simp)
          obtain ⟨_, _, found⟩ := bind_eq_ok_iff.1 found
          obtain ⟨_, _, found⟩ := bind_eq_ok_iff.1 found
          obtain ⟨_, _, refused⟩ := bind_eq_ok_iff.1 found
          exact absurd refused (by simp [bind, Except.bind, throw, throwThe, MonadExceptOf.throw])
      | false =>
          cases tree.locate path with
          | error fault => simp [bind, Except.bind]
          | ok found =>
              by_cases directory : tree.node? found = some .directory
              · refine iff_of_false ?_ ?_
                · simp [bind, Except.bind, throw, throwThe, MonadExceptOf.throw, directory]
                · rintro ⟨_, same, file⟩
                  obtain rfl := Except.ok.inj same
                  exact file directory
              · simp only [bind, Except.bind, pure, Except.pure, directory, if_false, true_and]
                refine (and_iff_left_of_imp fun same => ?_).symm
                obtain rfl := Except.ok.inj same
                exact directory

theorem SameWays.locateFile_eq_ok_iff (same : left.SameWays right) :
    right.locateFile path = .ok place ↔ left.locateFile path = .ok place := by
  rw [FileTree.locateFile_eq_ok_iff, FileTree.locateFile_eq_ok_iff, same.locate_eq_ok_iff,
    ne_eq, same.directories]

/-- A place where a file can be written is not the outermost. -/
theorem ne_nil_of_locateFile (located : tree.locateFile path = .ok place) : place ≠ [] := by
  rintro rfl
  exact (locateFile_eq_ok_iff.1 located).2.2 rfl

/-- A file that is made or emptied is put where it can be written. -/
theorem create_eq_ok_iff {after : FileTree} : tree.create path = .ok (place, after) ↔
    tree.locateFile path = .ok place ∧ after = tree.put place (.file []) := by
  unfold create
  rw [bind_eq_ok_iff]
  constructor
  · rintro ⟨found, located, made⟩
    obtain ⟨rfl, rfl⟩ := Prod.mk.inj (Except.ok.inj made)
    exact ⟨located, rfl⟩
  · rintro ⟨located, rfl⟩
    exact ⟨place, located, rfl⟩

/-- What is read at a path is what others can read where it leads. -/
theorem read_eq_ok_iff : tree.read path = .ok content ↔
    ∃ place, tree.locate path = .ok place ∧ tree.contentAt? place = some content ∧
      endsInSlash path = false := by
  unfold FileTree.read
  rw [bind_eq_ok_iff]
  refine exists_congr fun place => and_congr_right fun _ => ?_
  unfold contentAt?
  cases tree.node? place with
  | none => simp [throw, throwThe, MonadExceptOf.throw]
  | some node =>
      cases node with
      | directory => simp [throw, throwThe, MonadExceptOf.throw, Node.content?]
      | file held =>
          cases endsInSlash path <;> simp [throw, throwThe, MonadExceptOf.throw, Node.content?,
            pure, Except.pure]
      | engine =>
          cases endsInSlash path <;> simp [throw, throwThe, MonadExceptOf.throw, Node.content?,
            pure, Except.pure]

end FileTree

end Depot
