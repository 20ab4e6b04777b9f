import Depot.Bucket.Basic
import Depot.Bucket.Entry

/-!
# Storing objects

One object or several are checked, written and sealed. In the atomic mode all
writes of a call are one commit. In the independent mode the content is written
first, then the name, then the record, each with a commit of its own; for several
objects the contents share a commit, and objects that are written completely
before a failure stay stored and are sealed.
-/

namespace Depot.Bucket

/-- Commits a batch of these entries; a taken name is told as a conflict. -/
def commitEntries (entries : List Entry) (batch : Batch) : Session Unit := do
  match ← Session.attempt (Session.commit batch) with
  | .ok () => return ()
  | .error error => Session.fail (Entry.explain entries error)

/-- Writes name and record of an entry, each with a commit of its own. -/
def indexEntry (entry : Entry) : Session Unit := do
  commitEntries [entry] entry.nameWrite
  Session.commit entry.recordWrite

/-- Fails if the name of an entry is taken. -/
def requireFreeName (entry : Entry) : Session Unit := do
  if ← Session.holds .name entry.nameKey then
    Session.fail entry.conflict

/-- Writes an entry as the mode says. -/
def writeEntry (mode : WriteMode) (entry : Entry) : Session Unit :=
  match mode with
  | .atomic => commitEntries [entry] entry.fullWrite
  | .independent => do
    requireFreeName entry
    Session.commit entry.payloadWrite
    indexEntry entry

/-- Stores an object; gives it back sealed. -/
def create (bucket : Bucket) (object : Object) : Session Object := do
  let entry ← Session.accept (Entry.prepare bucket.settings.requireContentType object)
  writeEntry bucket.settings.writeMode entry
  bucket.report (.objectCreated object.identity object.name object.owner object.size)
  return object.sealed

/-- The entries of all objects, or the refusal of the first that may not be
stored. -/
def prepareAll (requireContentType : Bool) : List Object → Except DataError (List Entry)
  | [] => .ok []
  | object :: rest =>
    match Entry.prepare requireContentType object with
    | .error error => .error error
    | .ok entry =>
      match prepareAll requireContentType rest with
      | .error error => .error error
      | .ok entries => .ok (entry :: entries)

/-- Fails if the name of one of the entries is taken. -/
def requireFreeNames : List Entry → Session Unit
  | [] => pure ()
  | entry :: rest => do
    requireFreeName entry
    requireFreeNames rest

/-- Indexes entries one after the other up to the first failure: how many were
indexed, and the outcome. -/
def indexEntries : List Entry → StateM Store (Nat × Except StoreError Unit)
  | [] => pure (0, .ok ())
  | entry :: rest => do
    match ← (indexEntry entry).run with
    | .error error => return (0, .error error)
    | .ok () =>
      let (count, outcome) ← indexEntries rest
      return (count + 1, outcome)

/-- Writes entries as the mode says: how many are stored completely, and the
outcome. -/
def writeEntries (mode : WriteMode) (entries : List Entry) :
    StateM Store (Nat × Except StoreError Unit) :=
  match mode with
  | .atomic => do
    match ← (commitEntries entries (Batch.join (entries.map Entry.fullWrite))).run with
    | .error error => return (0, .error error)
    | .ok () => return (entries.length, .ok ())
  | .independent => do
    let contents := do
      requireFreeNames entries
      Session.commit (Batch.join (entries.map Entry.payloadWrite))
    match ← contents.run with
    | .error error => return (0, .error error)
    | .ok () => indexEntries entries

/-- What comes of storing several objects. -/
structure Creation where
  result : Except StoreError (List Uuid)
  /-- The objects, those that are stored being sealed. -/
  objects : List Object

/-- The checked entries of several objects, no two of the same name and owner. -/
def prepareBatch (bucket : Bucket) (objects : List Object) : Except StoreError (List Entry) :=
  match prepareAll bucket.settings.requireContentType objects with
  | .error error => .error (.invalid error)
  | .ok entries =>
    match Entry.firstRepeated [] entries with
    | some entry => .error entry.conflict
    | none => .ok entries

/-- Stores several objects. All are checked before anything is written. -/
def createBatch (bucket : Bucket) (objects : List Object) : StateM Store Creation := do
  if objects.isEmpty then
    return ⟨.ok [], objects⟩
  else
    match bucket.prepareBatch objects with
    | .error error => return ⟨.error error, objects⟩
    | .ok entries =>
      let (count, outcome) ← writeEntries bucket.settings.writeMode entries
      let objects := (objects.take count).map Object.sealed ++ objects.drop count
      match outcome with
      | .error error => return ⟨.error error, objects⟩
      | .ok () =>
        let _ ← (bucket.report (.batchCreated entries.length)).run
        return ⟨.ok (entries.map Entry.identity), objects⟩

end Depot.Bucket
