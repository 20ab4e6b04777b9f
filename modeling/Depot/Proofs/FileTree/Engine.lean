import Depot.FileTree.Engine
import Depot.Proofs.FileTree

/-!
# What an engine does to files

An engine works in the directory of a store and touches two files there. It makes them where they
are missing and keeps in one of them what the store holds; everything else in the tree stays as it
is, paths lead where they led, and what could be read reads the same. Once an engine was opened in
a directory it is opened there again, and finds what was kept.
-/

namespace Depot

namespace FileTree

variable {tree middle after : FileTree} {place found sought : Place} {node : Node}
  {path name : String} {content : Bytes} {contents : Contents} {settings : EngineSettings}

/-! ## Paths into a directory -/

theorem stretches_ne_nil (characters : List Char) : stretches characters ≠ [] := by
  cases characters with
  | nil => simp [stretches]
  | cons character rest =>
      rw [stretches]
      split
      · simp
      · split <;> simp

/-- Stretches end at a slash. -/
theorem stretches_append (characters others : List Char) :
    stretches (characters ++ '/' :: others) = stretches characters ++ stretches others := by
  induction characters with
  | nil => rfl
  | cons character rest inductionHypothesis =>
      rw [List.cons_append, stretches, stretches, inductionHypothesis]
      split
      · rfl
      · cases first : stretches rest with
        | nil => exact absurd first (stretches_ne_nil rest)
        | cons stretch further => rfl

theorem stretches_of_not_mem {characters : List Char} (plain : '/' ∉ characters) :
    stretches characters = [characters] := by
  induction characters with
  | nil => rfl
  | cons character rest inductionHypothesis =>
      rw [List.mem_cons, not_or] at plain
      rw [stretches, if_neg (Ne.symm plain.1), inductionHypothesis plain.2]

/-- A text that names a file in a directory. -/
structure IsFileName (name : String) : Prop where
  nonempty : name.toList ≠ []
  plain : '/' ∉ name.toList
  notHere : name ≠ "."
  notOuter : name ≠ ".."
  short : name.utf8ByteSize ≤ nameLimit

theorem isFileName_lockFile : IsFileName lockFile :=
  ⟨by decide, by decide, by decide, by decide, by decide⟩

theorem isFileName_engineFile : IsFileName engineFile :=
  ⟨by decide, by decide, by decide, by decide, by decide⟩

theorem toList_inside (path name : String) :
    (inside path name).toList = path.toList ++ '/' :: name.toList := by
  simp [inside, String.toList_append]

theorem parts_inside (isName : IsFileName name) (path : String) :
    parts (inside path name) = parts path ++ [name] := by
  have own : [name.toList].filter (fun stretch => stretch ≠ []) = [name.toList] := by
    simp [isName.nonempty]
  rw [parts, parts, toList_inside, stretches_append, stretches_of_not_mem isName.plain,
    List.filter_append, own, List.map_append, List.map_singleton, String.ofList_toList]

theorem endsInSlash_inside (isName : IsFileName name) (path : String) :
    endsInSlash (inside path name) = false := by
  obtain ⟨last, ends⟩ := Option.ne_none_iff_exists'.1
    fun none => isName.nonempty (List.getLast?_eq_none_iff.1 none)
  refine decide_eq_false fun slash => isName.plain (List.mem_of_getLast? ?_)
  rwa [toList_inside, List.append_cons, List.getLast?_append, ends, Option.some_or, ← ends] at slash

theorem origin_inside (tree : FileTree) (nonempty : path ≠ "") (name : String) :
    tree.origin (inside path name) = tree.origin path := by
  obtain ⟨first, starts⟩ := Option.ne_none_iff_exists'.1
    fun none => nonempty (String.toList_eq_nil_iff.1 (List.head?_eq_none_iff.1 none))
  rw [origin, origin, toList_inside, List.head?_append, starts, Option.some_or]

/-- A file in a directory to which a path leads can be written where the name says, unless there is
a directory again, or the path becomes too long. -/
theorem locateFile_inside_iff (located : tree.locate path = .ok place)
    (directory : tree.node? place = some .directory) (isName : IsFileName name) :
    tree.locateFile (inside path name) = .ok sought ↔
      requirePath (inside path name) = .ok () ∧ sought = place ++ [name] ∧
        tree.node? (place ++ [name]) ≠ some .directory := by
  obtain ⟨_, nonempty, followed⟩ := locate_eq_ok_iff.1 located
  have entered : tree.enter place name = .ok (place ++ [name]) := by
    rw [enter_of_directory directory, if_neg isName.notHere, if_neg isName.notOuter,
      if_neg (Nat.not_lt.2 isName.short)]
  have leads : tree.follow (tree.origin (inside path name)) (parts (inside path name))
      = .ok (place ++ [name]) := by
    rw [origin_inside tree nonempty, parts_inside isName, follow_append, followed]
    show tree.follow place [name] = _
    rw [follow, entered]
    rfl
  have present : inside path name ≠ "" := by
    intro empty
    have characters := congrArg String.toList empty
    rw [toList_inside] at characters
    exact absurd characters (by simp)
  rw [locateFile_eq_ok_iff, endsInSlash_inside isName, locate_eq_ok_iff, leads]
  simp only [true_and, present, ne_eq, not_false_eq_true, Except.ok.injEq]
  constructor
  · rintro ⟨⟨possible, rfl⟩, file⟩
    exact ⟨possible, rfl, file⟩
  · rintro ⟨possible, rfl, file⟩
    exact ⟨⟨possible, rfl⟩, file⟩

/-- A directory that a path leads to needs not be made. -/
theorem makeDirectories_of_directory (located : tree.locate path = .ok place)
    (directory : tree.node? place = some .directory) :
    tree.makeDirectories path = (tree, .ok ()) := by
  obtain ⟨possible, _, followed⟩ := locate_eq_ok_iff.1 located
  have ensured : tree.ensureDirectory (tree.origin path) (parts path) = .ok tree := by
    rw [ensureDirectory, followed]
    dsimp only [bind, Except.bind]
    rw [directory]
    rfl
  rw [makeDirectories, possible]
  dsimp only
  rw [ensured]

/-! ## Work in a directory -/

/-- An engine has worked in the directory at a place: nothing but its own two files is different,
paths lead where they led, and what could be read reads the same. -/
structure WorkedAt (tree : FileTree) (place : Place) (after : FileTree) : Prop where
  ways : tree.SameWays after
  beside : ∀ sought, sought ≠ place ++ [lockFile] → sought ≠ place ++ [engineFile] →
    after.node? sought = tree.node? sought
  readable : ∀ sought content, tree.contentAt? sought = some content →
    after.contentAt? sought = some content

theorem WorkedAt.refl (tree : FileTree) (place : Place) : tree.WorkedAt place tree :=
  ⟨.refl tree, fun _ _ _ => rfl, fun _ _ read => read⟩

theorem WorkedAt.trans (first : tree.WorkedAt place middle) (second : middle.WorkedAt place after) :
    tree.WorkedAt place after where
  ways := first.ways.trans second.ways
  beside _ lock engine := (second.beside _ lock engine).trans (first.beside _ lock engine)
  readable _ _ read := second.readable _ _ (first.readable _ _ read)

/-- What an engine puts in the place of one of its files is its work, if it is a file and leaves
what could be read. -/
theorem workedAt_put (own : sought = place ++ [lockFile] ∨ sought = place ++ [engineFile])
    (before : tree.node? sought ≠ some .directory) (file : node ≠ .directory)
    (readable : ∀ content, tree.contentAt? sought = some content → node.content? = some content) :
    tree.WorkedAt place (tree.put sought node) := by
  have inside : sought ≠ [] := by
    rintro rfl
    exact before rfl
  refine ⟨sameWays_put before file, fun other lock engine => ?_, fun other content read => ?_⟩
  · refine (node?_put tree inside node other).trans (if_neg ?_)
    rintro rfl
    exact own.elim lock engine
  · rw [contentAt?, node?_put tree inside]
    by_cases same : other = sought
    · rw [if_pos same]
      exact readable content (same ▸ read)
    · rw [if_neg same]
      exact read

/-- What can be read at a path reads the same afterwards. -/
theorem WorkedAt.read (worked : tree.WorkedAt place after) (read : tree.read path = .ok content) :
    after.read path = .ok content := by
  obtain ⟨found, located, held, unslashed⟩ := read_eq_ok_iff.1 read
  exact read_eq_ok_iff.2
    ⟨found, worked.ways.locate located, worked.readable _ _ held, unslashed⟩

/-- A store in the directory at a place holds these contents, in a file of its engine. -/
structure Hosts (tree : FileTree) (place : Place) (contents : Contents) : Prop where
  directory : tree.node? place = some .directory
  locked : ∃ node, tree.node? (place ++ [lockFile]) = some node ∧ node ≠ .directory
  held : tree.node? (place ++ [engineFile]) = some (.engine contents)

theorem Hosts.contentsAt_eq (hosts : tree.Hosts place contents) :
    tree.contentsAt place = contents := by
  rw [contentsAt, hosts.held]

theorem engineFile_ne_lockFile (place : Place) : place ++ [engineFile] ≠ place ++ [lockFile] :=
  fun same => absurd (List.append_cancel_left same) (by decide)

/-- One of the engine's files is opened in the directory if there is no directory in its place. -/
theorem openFile_own (located : tree.locate path = .ok place)
    (directory : tree.node? place = some .directory) (own : name = lockFile ∨ name = engineFile)
    (opened : tree.openFile (inside path name) = .ok (found, after)) :
    requirePath (inside path name) = .ok () ∧ found = place ++ [name] ∧
      tree.WorkedAt place after ∧ after.contentsAt place = tree.contentsAt place ∧
      (∃ node, after.node? (place ++ [name]) = some node ∧ node ≠ .directory) ∧
      ∀ sought, sought ≠ place ++ [name] → after.node? sought = tree.node? sought := by
  have isName : IsFileName name := by
    rcases own with rfl | rfl
    · exact isFileName_lockFile
    · exact isFileName_engineFile
  unfold openFile at opened
  cases written : tree.locateFile (inside path name) with
  | error fault =>
      rw [written] at opened
      exact absurd opened (by simp)
  | ok target =>
      rw [written] at opened
      obtain ⟨possible, rfl, file⟩ := (locateFile_inside_iff located directory isName).1 written
      dsimp only at opened
      cases present : tree.node? (place ++ [name]) with
      | some node =>
          rw [present] at opened
          obtain ⟨rfl, rfl⟩ := Prod.mk.inj (Except.ok.inj opened)
          exact ⟨possible, rfl, .refl _ _, rfl, ⟨node, present, fun same => file (same ▸ present)⟩,
            fun _ _ => rfl⟩
      | none =>
          rw [present] at opened
          obtain ⟨rfl, rfl⟩ := Prod.mk.inj (Except.ok.inj opened)
          have put := node?_put tree (List.concat_ne_nil name place) (.file [])
          refine ⟨possible, rfl, workedAt_put ?_ file (by simp) ?_, ?_, ⟨.file [], ?_, by simp⟩,
            fun sought other => by rw [put, if_neg other]⟩
          · exact own.imp (congrArg (place ++ [·])) (congrArg (place ++ [·]))
          · simp [contentAt?, present]
          · rw [contentsAt, contentsAt, put]
            rcases own with rfl | rfl
            · rw [if_neg (engineFile_ne_lockFile place)]
            · rw [if_pos rfl, present]
          · rw [put, if_pos rfl]

/-- A file that the engine takes as its file of contents holds what the store in the directory
holds. -/
theorem openContents_own
    (present : ∃ node, tree.node? (place ++ [engineFile]) = some node ∧ node ≠ .directory)
    (opened : tree.openContents (place ++ [engineFile]) = .ok after) :
    tree.WorkedAt place after ∧
      after.node? (place ++ [engineFile]) = some (.engine (tree.contentsAt place)) ∧
      ∀ sought, sought ≠ place ++ [engineFile] → after.node? sought = tree.node? sought := by
  obtain ⟨node, present, file⟩ := present
  have put := node?_put tree (List.concat_ne_nil engineFile place) (.engine {})
  unfold openContents at opened
  rw [present] at opened
  cases node with
  | directory => exact absurd rfl file
  | engine contents =>
      obtain rfl := Except.ok.inj opened
      refine ⟨.refl _ _, ?_, fun _ _ => rfl⟩
      rw [contentsAt, present]
  | file content =>
      cases content with
      | cons => exact absurd opened (by simp)
      | nil =>
          obtain rfl := Except.ok.inj opened
          refine ⟨workedAt_put (.inr rfl) (by simp [present]) (by simp) ?_, ?_,
            fun sought other => by rw [put, if_neg other]⟩
          · simp [contentAt?, present, Node.content?]
          · rw [put, if_pos rfl, contentsAt, present]

/-- Settings under which an engine may be opened in the directory of a path. -/
structure MayOpen (settings : EngineSettings) (path : String) : Prop where
  readers : settings.maxReaders ≠ 0
  room : settings.fitsMemory = true
  lockPath : requirePath (inside path lockFile) = .ok ()
  enginePath : requirePath (inside path engineFile) = .ok ()

/-- Opening the engine's files in a directory is its work, whether it comes to an end or not, and
what the store holds is kept. If it does, the store is there. -/
theorem workedAt_openEngineFiles (located : tree.locate path = .ok place)
    (directory : tree.node? place = some .directory) (settings : EngineSettings) :
    tree.WorkedAt place (tree.openEngineFiles settings path).1 ∧
      (tree.openEngineFiles settings path).1.contentsAt place = tree.contentsAt place ∧
      ((tree.openEngineFiles settings path).2 = .ok () →
        MayOpen settings path ∧
          (tree.openEngineFiles settings path).1.Hosts place (tree.contentsAt place)) := by
  have unopened : ∀ error : StoreError, tree.WorkedAt place tree ∧
      tree.contentsAt place = tree.contentsAt place ∧ (Except.error error = .ok () →
        MayOpen settings path ∧ tree.Hosts place (tree.contentsAt place)) :=
    fun error => ⟨.refl _ _, rfl, fun wrong => absurd wrong (by simp)⟩
  unfold openEngineFiles
  split
  · exact unopened _
  rename_i readers
  cases locking : tree.openFile (inside path lockFile) with
  | error error => exact unopened _
  | ok opened =>
      obtain ⟨lock, locked⟩ := opened
      obtain ⟨lockPath, _, workedLock, keptLock, lockNode, _⟩ :=
        openFile_own located directory (.inl rfl) locking
      have locatedLocked := workedLock.ways.locate located
      have directoryLocked := (workedLock.ways.directories place).2 directory
      dsimp only
      cases opening : locked.openFile (inside path engineFile) with
      | error error => exact ⟨workedLock, keptLock, fun wrong => absurd wrong (by simp)⟩
      | ok opened =>
          obtain ⟨found, opened⟩ := opened
          obtain ⟨enginePath, rfl, workedFile, keptFile, fileNode, lockKept⟩ :=
            openFile_own locatedLocked directoryLocked (.inr rfl) opening
          have worked := workedLock.trans workedFile
          have kept := keptFile.trans keptLock
          dsimp only
          cases taking : opened.openContents (place ++ [engineFile]) with
          | error error => exact ⟨worked, kept, fun wrong => absurd wrong (by simp)⟩
          | ok taken =>
              obtain ⟨workedTaken, held, lockStill⟩ := openContents_own fileNode taking
              rw [kept] at held
              have still : taken.contentsAt place = tree.contentsAt place := by
                rw [contentsAt, held]
              refine ⟨worked.trans workedTaken, still, fun done => ?_⟩
              have room : settings.fitsMemory = true := by
                cases fits : settings.fitsMemory with
                | true => rfl
                | false =>
                    rw [fits] at done
                    exact absurd done (by simp)
              have apart := (engineFile_ne_lockFile place).symm
              obtain ⟨node, present, file⟩ := lockNode
              exact ⟨⟨readers, room, lockPath, enginePath⟩,
                ((worked.trans workedTaken).ways.directories place).2 directory,
                ⟨node, (lockStill _ apart).trans ((lockKept _ apart).trans present), file⟩, held⟩

/-- So is opening the engine in a directory that is there. -/
theorem workedAt_openEngine (located : tree.locate path = .ok place)
    (directory : tree.node? place = some .directory) (settings : EngineSettings) :
    tree.WorkedAt place (tree.openEngine settings path).1 ∧
      (tree.openEngine settings path).1.contentsAt place = tree.contentsAt place ∧
      ∀ found, (tree.openEngine settings path).2 = .ok found → found = place ∧
        MayOpen settings path ∧
        (tree.openEngine settings path).1.Hosts place (tree.contentsAt place) := by
  obtain ⟨worked, kept, opened⟩ := workedAt_openEngineFiles located directory settings
  unfold openEngine
  rw [makeDirectories_of_directory located directory]
  dsimp only
  generalize tree.openEngineFiles settings path = files at *
  obtain ⟨after, result⟩ := files
  cases result with
  | error error => exact ⟨worked, kept, fun _ wrong => absurd wrong (by simp)⟩
  | ok =>
      refine ⟨worked, kept, fun found done => ?_⟩
      dsimp only at done
      rw [worked.ways.locate located] at done
      exact ⟨(Except.ok.inj done).symm, opened rfl⟩

/-- An engine whose store is in a directory is opened there, and nothing changes. -/
theorem openEngine_of_hosts (located : tree.locate path = .ok place)
    (hosts : tree.Hosts place contents) (may : MayOpen settings path) :
    tree.openEngine settings path = (tree, .ok place) := by
  obtain ⟨node, lockNode, lockIsFile⟩ := hosts.locked
  have openedLock : tree.openFile (inside path lockFile) = .ok (place ++ [lockFile], tree) := by
    rw [openFile, (locateFile_inside_iff located hosts.directory isFileName_lockFile).2
      ⟨may.lockPath, rfl, by simpa [lockNode] using lockIsFile⟩]
    dsimp only
    rw [lockNode]
  have openedFile : tree.openFile (inside path engineFile)
      = .ok (place ++ [engineFile], tree) := by
    rw [openFile, (locateFile_inside_iff located hosts.directory isFileName_engineFile).2
      ⟨may.enginePath, rfl, by simp [hosts.held]⟩]
    dsimp only
    rw [hosts.held]
  have taken : tree.openContents (place ++ [engineFile]) = .ok tree := by
    rw [openContents, hosts.held]
  have opened : tree.openEngineFiles settings path = (tree, .ok ()) := by
    simp only [openEngineFiles, if_neg may.readers, openedLock, openedFile, taken, may.room,
      if_true]
  rw [openEngine, makeDirectories_of_directory located hosts.directory]
  dsimp only
  rw [opened]
  dsimp only
  rw [located]
  rfl

/-- What a store holds is kept in the file of its engine. -/
theorem Hosts.keepContents (hosts : tree.Hosts place contents) (kept : Contents) :
    (tree.keepContents place kept).Hosts place kept ∧
      tree.WorkedAt place (tree.keepContents place kept) := by
  have put := node?_put tree (List.concat_ne_nil engineFile place) (.engine kept)
  have worked : tree.WorkedAt place (tree.keepContents place kept) := by
    refine workedAt_put (.inr rfl) (by simp [hosts.held]) (by simp) ?_
    simp [contentAt?, hosts.held, Node.content?]
  obtain ⟨node, lockNode, file⟩ := hosts.locked
  refine ⟨⟨(worked.ways.directories place).2 hosts.directory, ⟨node, ?_, file⟩, ?_⟩, worked⟩
  · exact (put _).trans ((if_neg (engineFile_ne_lockFile place).symm).trans lockNode)
  · exact (put _).trans (if_pos rfl)

/-- A file that is written beside the file of contents leaves the store as it is. -/
theorem Hosts.put (hosts : tree.Hosts place contents) (content : Bytes)
    (writable : tree.node? found ≠ some .directory) (apart : found ≠ place ++ [engineFile]) :
    (tree.put found (.file content)).Hosts place contents := by
  have inside : found ≠ [] := by
    rintro rfl
    exact writable rfl
  have put := node?_put tree inside (.file content)
  obtain ⟨node, lockNode, file⟩ := hosts.locked
  refine ⟨((sameWays_put writable (by simp)).directories place).2 hosts.directory, ?_, ?_⟩
  · by_cases own : place ++ [lockFile] = found
    · exact ⟨_, (put _).trans (if_pos own), by simp⟩
    · exact ⟨node, (put _).trans ((if_neg own).trans lockNode), file⟩
  · exact (put _).trans ((if_neg apart.symm).trans hosts.held)

end FileTree

end Depot
