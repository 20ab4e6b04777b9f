import Depot.Proofs.Command.Composing
import Depot.Proofs.Command.Intact

/-!
# Files that are stored, copied out and removed

What a command stores from a file is found by every later command on the bucket, whether it means
the object by its identity or by its name and owner, and however those are spelled: a copy writes
the bytes of the file again. Once the object is removed, it is missed by both. Between two commands
anything may happen to the files, as long as the bucket can be opened and holds what it held.
-/

namespace Depot

namespace Contents

variable {contents : Contents} {object : Object} {owner : Uuid} {name text : String}

/-- An object is in stock: its entry is there, and its metadata describes it and can be read
back. -/
structure Stocks (contents : Contents) (object : Object) : Prop where
  has : contents.Has object.entry
  fits : object.metadata.FitsWords
  describes : ∃ owner : Uuid, object.owner = owner.toText ∧
    object.metadata.Describes object.identity object.name owner

/-- Neither the identity nor the name of an object leads anywhere. -/
structure Misses (contents : Contents) (object : Object) : Prop where
  record : contents.records.get? object.identity.key = none
  name : contents.names.get? object.entry.nameKey = none

theorem Stocks.sound (stocks : contents.Stocks object) : object.entry.Sound := by
  obtain ⟨owner, canonical, describes⟩ := stocks.describes
  exact ⟨owner, canonical, object.metadata, Metadata.decode_encode stocks.fits, describes⟩

/-- An object in stock is what its sealed metadata and content make up. -/
theorem Stocks.made (stocks : contents.Stocks object) : object.sealed.Made := by
  obtain ⟨owner, _, describes⟩ := stocks.describes
  exact .restore (Object.restore_of_describes describes object.payload) stocks.fits

theorem Stocks.metadataOf (stocks : contents.Stocks object) :
    contents.metadataOf object.identity = .ok object.metadata :=
  @Has.metadataOf contents object.sealed stocks.has stocks.made

theorem Stocks.objectOf (stocks : contents.Stocks object) :
    contents.objectOf object.identity = .ok object.sealed :=
  @Has.objectOf contents object.sealed stocks.has stocks.made stocks.sound

theorem Stocks.offers (stocks : contents.Stocks object) :
    contents.Offers object.identity object.payload :=
  ⟨⟨_, _, stocks.has.record, Metadata.decode_encode stocks.fits⟩, stocks.has.payload⟩

/-- An object that is removed is missed. -/
theorem Stocks.misses_without (stocks : contents.Stocks object) :
    (contents.without object.identity object.metadata).Misses object where
  record := by
    show ((contents.withoutName object.identity object.metadata).records.erase _).get? _ = none
    exact OrderedMap.get?_erase_self _ _
  name := by
    obtain ⟨owner, _, describes⟩ := stocks.describes
    refine Option.eq_none_iff_forall_ne_some.2 fun value held => ?_
    obtain ⟨found, elsewhere⟩ := (get?_withoutName_iff describes).1 held
    have own : object.identity.key = value := Option.some.inj (stocks.has.name.symm.trans found)
    exact elsewhere ⟨describes.nameKey_eq.symm, own⟩

/-- A name that leads nowhere is told with the owner in canonical form. -/
theorem resolved_of_missing (spells : owner.Spells text)
    (missing : contents.names.get? (nameKey name owner.toText) = none) :
    contents.resolved name text = .error (.nameNotFound name owner.toText) := by
  rw [resolved, spells.normalise_eq]
  show contents.identityOf name owner.toText = _
  rw [identityOf, missing]
  split
  · rfl
  · rfl

end Contents

namespace Command

open FileTree

variable {world after : World} {place file : Place} {contents : Contents} {object : Object}
  {invocation : Invocation} {opened : Opened} {target : Target}

/-! ## Objects that are meant -/

/-- A target means an object: by any spelling of its identity, or by its name and any spelling of
its owner. -/
inductive Target.Means (object : Object) : Target → Prop where
  | identity {text : String} (spells : object.identity.Spells text) : Means object (.identity text)
  | named {owner : Uuid} {text : String} (owned : object.owner = owner.toText)
      (spells : owner.Spells text) : Means object (.named object.name text)

/-- How a target is told to have meant an object in vain. -/
def Target.absence (object : Object) : Target → Failure
  | .identity _ => .ofStore (.notFound object.identity)
  | .named _ _ => .ofStore (.nameNotFound object.name object.owner)

/-- An object in stock is found by every target that means it. -/
theorem Target.Means.identityIn_of_stocks (means : target.Means object)
    (stocks : contents.Stocks object) : target.identityIn contents = .ok object.identity := by
  cases means with
  | identity spells => rw [identityIn, Uuid.ofText_eq_ok_iff.2 spells.parse?]; rfl
  | @named owner text owned spells =>
      have resolved : contents.resolved object.name text = .ok object.identity :=
        stocks.has.resolved stocks.sound
          (spells.canonicalise_eq.trans owned.symm)
      have found : contents.objectNamed object.name text = .ok object.sealed :=
        Contents.objectNamed_eq_ok_iff.2 ⟨object.identity, resolved, stocks.objectOf⟩
      rw [identityIn, found]
      rfl

/-- It is told to be absent once it is missed: a name at once, an identity when it is looked up. -/
theorem Target.Means.recordIn_of_misses (means : target.Means object)
    (misses : contents.Misses object) :
    target.recordIn contents = .error (target.absence object) := by
  cases means with
  | identity spells =>
      rw [recordIn, identityIn, Uuid.ofText_eq_ok_iff.2 spells.parse?]
      show ((contents.metadataOf object.identity).mapError Failure.ofStore).map _ = _
      rw [Contents.metadataOf_of_missing misses.record]
      rfl
  | @named owner text owned spells =>
      have missing : contents.names.get? (nameKey object.name owner.toText) = none :=
        owned ▸ misses.name
      have unresolved := Contents.resolved_of_missing spells missing
      rw [recordIn, identityIn, Contents.objectNamed, unresolved, absence, owned]
      rfl

/-! ## Invocations that find a bucket -/

/-- An invocation finds contents at a place: its path leads there, the bucket can be opened, and
this is what it holds. -/
structure Invocation.Finds (invocation : Invocation) (world : World) (place : Place)
    (contents : Contents) : Prop where
  path : ∃ path, invocation.bucket = some path ∧ world.tree.locate path = .ok place
  opens : ∃ opened, (invocation.openOwn.run.run world).1 = .ok opened
  holds : world.tree.contentsAt place = contents

/-- What is reached is found. -/
theorem Invocation.Reaches.finds (reaches : invocation.Reaches world opened contents) :
    invocation.Finds world opened.place contents := by
  obtain ⟨path, named, _, located, _⟩ := reaches.path
  obtain ⟨after, run, _⟩ := reaches.openOwn
  exact ⟨⟨path, named, located⟩, ⟨opened, congrArg Prod.fst run⟩, reaches.hosts.contentsAt_eq⟩

/-- An invocation that finds a bucket lets its command work there. -/
theorem Invocation.Finds.exists_run {work : Opened → Task Report}
    (finds : invocation.Finds world place contents) (works : Works invocation.command work) :
    ∃ opened between, opened.place = place ∧ invocation.Reaches between opened contents ∧
      world.tree.WorkedAt place between.tree ∧
      invocation.run.run.run world = (work opened).run.run between := by
  obtain ⟨path, named, located⟩ := finds.path
  obtain ⟨opened, opens⟩ := finds.opens
  have run := Prod.fst_eq_iff.1 opens
  obtain ⟨worked, _, reaches⟩ := invocation.workedAt_openOwn named located run
  obtain ⟨same, reaches⟩ := reaches opened rfl
  refine ⟨opened, _, same, finds.holds ▸ reaches, worked, ?_⟩
  rw [works.run_eq, run_bind, run]

/-- What can be written is no file of the engine's contents. -/
def Writable (tree : FileTree) (place : Place) (path : String) (file : Place) : Prop :=
  tree.locateFile path = .ok file ∧ file ≠ place ++ [engineFile]

/-- Every copy of an object from a bucket writes its content. -/
def CopiesOut (place : Place) (contents : Contents) (object : Object) : Prop :=
  ∀ (getting : Invocation) (world : World) (target : Target) (path : String) (file : Place),
    getting.Finds world place contents → target.Means object →
    getting.command = .get target (some path) → Writable world.tree place path file →
    ∃ after, getting.run.run.run world = (.ok (.copied object.identity object.size path), after) ∧
      after.tree.node? file = some (.file object.payload) ∧
      after.tree.contentsAt place = contents

theorem copiesOut_of_stocks (stocks : contents.Stocks object) :
    CopiesOut place contents object := by
  intro getting world target path file finds means asks ⟨located, apart⟩
  obtain ⟨opened, between, rfl, reaches, worked, run⟩ :=
    finds.exists_run (asks ▸ Works.get target (some path))
  obtain ⟨after, copied, hosts, written, _⟩ := exists_run_retrieve_copied reaches.hosts
    (means.identityIn_of_stocks stocks) (worked.ways.locateFile_eq_ok_iff.2 located) apart
  rw [Contents.delivered_of_offers stocks.offers,
    Sink.deliver_of_takesAll Sink.takesAll_all] at copied written
  exact ⟨after, run.trans copied, written, hosts.contentsAt_eq⟩

/-- A command asks for an object that a target means: it shows it, copies it to a file that can be
written, or removes it. -/
def AsksFor (tree : FileTree) (place : Place) (target : Target) (command : Command) : Prop :=
  command = .remove target ∨ ∃ output, command = .get target output ∧
    ∀ path, output = some path → ∃ file, Writable tree place path file

/-- Every command that asks for an object from a bucket fails and tells that it is absent. -/
def TellsAbsence (place : Place) (contents : Contents) (object : Object) : Prop :=
  ∀ (asking : Invocation) (world : World) (target : Target),
    asking.Finds world place contents → target.Means object →
    asking.command.AsksFor world.tree place target →
    (asking.run.run.run world).1 = .error (target.absence object)

theorem tellsAbsence_of_misses (misses : contents.Misses object) :
    TellsAbsence place contents object := by
  intro asking world target finds means asks
  have unrecorded := means.recordIn_of_misses misses
  rcases asks with removes | ⟨output, gets, writable⟩
  · obtain ⟨opened, between, _, reaches, _, run⟩ := finds.exists_run (removes ▸ Works.remove target)
    obtain ⟨after, _, done⟩ := exists_run_discard reaches.hosts target
    rw [unrecorded] at done
    rw [run, done.1]
  · obtain ⟨opened, between, rfl, reaches, worked, run⟩ :=
      finds.exists_run (gets ▸ Works.get target output)
    rw [run]
    refine exists_run_retrieve_unrecorded reaches.hosts unrecorded fun path copies => ?_
    obtain ⟨file, located, apart⟩ := writable path copies
    exact ⟨file, worked.ways.locateFile_eq_ok_iff.2 located, apart⟩

/-- An object is removed from a bucket that is left without it and can be opened again. -/
theorem exists_run_remove (stocks : contents.Stocks object)
    (finds : invocation.Finds world place contents) (means : target.Means object)
    (removes : invocation.command = .remove target) :
    ∃ after, invocation.run.run.run world = (.ok (.deleted object.identity), after) ∧
      invocation.Finds after place (contents.without object.identity object.metadata) := by
  obtain ⟨opened, between, rfl, reaches, _, run⟩ :=
    finds.exists_run (removes ▸ Works.remove target)
  obtain ⟨after, worked, done⟩ := exists_run_discard reaches.hosts target
  have recorded : target.recordIn contents = .ok (object.identity, object.metadata) := by
    rw [Target.recordIn, means.identityIn_of_stocks stocks]
    show ((contents.metadataOf object.identity).mapError Failure.ofStore).map _ = _
    rw [stocks.metadataOf]
    rfl
  rw [recorded] at done
  exact ⟨after, run.trans done.1, (reaches.of_workedAt worked done.2).finds⟩

/-! ## What is stored -/

/-- What is to be stored is what the parameters say. -/
theorem storing_eq_ok {given : Given} {described : Storing}
    (understood : storing given = .ok described) :
    given.value? .file = some described.file ∧ given.value? .name = some described.name ∧
      given.value? .owner = some described.owner ∧
      given.value? .contentType = described.contentType ∧
      assignments given .metadata = described.metadata := by
  unfold storing at understood
  split at understood
  · rename_i file name owner
    obtain rfl := Except.ok.inj understood
    exact ⟨file, name, owner, rfl, rfl⟩
  · exact absurd understood (by simp)

/-- An object is what parameters say is to be stored: it has the name, the owner in canonical form,
the kind of content, the last value of every tag, and the content of the file. -/
structure Given.Describes (given : Given) (entries : List (String × String)) (content : Bytes)
    (object : Object) : Prop where
  name : given.value? .name = some object.name
  owner : ∃ (text : String) (owner : Uuid), given.value? .owner = some text ∧
    owner.Spells text ∧ object.owner = owner.toText
  contentType : ∀ kind, given.value? .contentType = some kind → object.contentType? = some kind
  /-- It has the last value that is given for every tag. -/
  tags : ∀ key value, Metadata.LastValue entries key value → object.metadata.get? key = some value
  payload : object.payload = content

/-- A file whose storing succeeds is stored as an object that is what the parameters say. Metadata
has the last value of every tag, with all that follows the first equals sign. In every later state
of the files in which the bucket can be opened and holds what it held then, every copy of the object
writes the bytes of the file, whether its identity or its name is given and however the identity and
the owner are spelled. It can be removed under all of these, and once it is, every command that asks
for it under any of these tells that it is absent. Sizes of texts fit a machine word. -/
theorem stored_file_round_trips {given : Given} {entries : List (String × String)}
    {path source : String} {content : Bytes} {report : Report}
    (asks : ofGiven given .put = .ok invocation.command)
    (words : given.all .metadata = entries.map joined) (tags : ∀ entry ∈ entries, IsTag entry.1)
    (file : given.value? .file = some source) (read : world.tree.read source = .ok content)
    (named : invocation.bucket = some path) (located : world.tree.locate path = .ok place)
    (stored : invocation.run.run.run world = (.ok report, after))
    (fits : ∀ object, report = .stored object → object.metadata.FitsWords) :
    ∃ object, report = .stored object ∧ given.Describes entries content object ∧
      (after.tree.contentsAt place).objectOf object.identity = .ok object ∧
      invocation.Finds after place (after.tree.contentsAt place) ∧
      CopiesOut place (after.tree.contentsAt place) object ∧
      ∀ (removing : Invocation) (later : World) (target : Target),
        removing.Finds later place (after.tree.contentsAt place) → target.Means object →
        removing.command = .remove target →
        ∃ left, removing.run.run.run later = (.ok (.deleted object.identity), left) ∧
          removing.Finds left place (left.tree.contentsAt place) ∧
          TellsAbsence place (left.tree.contentsAt place) object := by
  obtain ⟨described, understood, puts⟩ := map_eq_ok_iff.1 asks
  obtain ⟨sameFile, sameName, sameOwner, sameType, sameMetadata⟩ := storing_eq_ok understood
  obtain rfl := Option.some.inj (sameFile.symm.trans file)
  rw [assignments_eq words tags] at sameMetadata
  have tagged : ∀ entry ∈ described.metadata, IsTag entry.1 := sameMetadata ▸ tags
  have works : Works invocation.command (store · described) := puts ▸ Works.put described
  rw [works.run_eq, run_bind_eq_ok_iff] at stored
  obtain ⟨opened, between, opens, stored⟩ := stored
  obtain ⟨worked, _, reaches⟩ := invocation.workedAt_openOwn named located opens
  obtain ⟨rfl, reaches⟩ := reaches opened rfl
  obtain ⟨workedAfter, held, object, entry, readHere, made, admitted, rfl, hosts⟩ :=
    store_ends reaches.hosts stored
  have storable := (Bucket.mayStore_cons_iff.1 (Bucket.admission_eq_ok_iff.1 admitted).1).1
  obtain ⟨payload, name, owner, spells, canonical, describes⟩ :=
    Storing.describes_of_objectFrom tagged made storable.valid
  have isDescribed : given.Describes entries content object := {
    name := name ▸ sameName
    owner := ⟨described.owner, owner, sameOwner, spells, canonical⟩
    contentType kind given := Storing.get?_contentType tagged made (sameType ▸ given)
    tags key value last := Storing.get?_tag tagged made (sameMetadata ▸ last)
    payload := payload.trans (Except.ok.inj (readHere.symm.trans (worked.read read))) }
  have stocks : ((world.tree.contentsAt opened.place).withEntry object.entry).Stocks
      object.sealed :=
    ⟨Contents.has_withEntry _ object.entry, fits object.sealed rfl, owner, canonical,
      name ▸ describes⟩
  rw [hosts.contentsAt_eq]
  refine ⟨object.sealed, rfl, ⟨isDescribed.name, isDescribed.owner, isDescribed.contentType,
    isDescribed.tags, isDescribed.payload⟩, stocks.objectOf,
    (reaches.of_workedAt workedAfter hosts).finds, copiesOut_of_stocks stocks, ?_⟩
  intro removing later target finds means removes
  obtain ⟨left, run, findsLeft⟩ := exists_run_remove stocks finds means removes
  have absent := @tellsAbsence_of_misses opened.place _ _ stocks.misses_without
  exact ⟨left, run, findsLeft.holds.symm ▸ findsLeft, findsLeft.holds.symm ▸ absent⟩

/-- The object as which the file beside the bucket is stored under a name and with two tags. -/
def note : Object :=
  let identity := ({} : Uuid.Source).next.1
  ⟨identity, (Object.make identity ⟨3⟩ "note" ⟨0, 0⟩).metadata.setAll [("k", ""), ("t", "1")],
    [1, 2, 3], true⟩

/-- A command that is given on the bucket. -/
def onShelf (command : Command) : Invocation := ⟨none, none, some "/b", false, .text, command⟩

/-- The file is stored from a command line that gives one tag twice. It is copied out by its name
under another spelling of the owner, and it is removed by its identity and then absent under its
name. -/
theorem note_round_trips :
    let world : World := ⟨shelf, {}, ⟨0, 0⟩, []⟩
    let words := ["--bucket=/b", "put", "--name=note",
      "--owner=00000000-0000-0000-0000-000000000003", "--meta=k=v=w", "--meta=t=1", "--meta=k=",
      "--", "/keep"]
    let named := Target.named "note" "urn:uuid:00000000-0000-0000-0000-000000000003"
    let identified := Target.identity note.identity.toText
    ∃ putting after copied left, Invocation.ofWords words = .ok putting ∧
      putting.run.run.run world = (.ok (.stored note), after) ∧
      note.metadata.get? "k" = some "" ∧
      (onShelf (.get named (some "/copy"))).run.run.run after
        = (.ok (.copied note.identity 3 "/copy"), copied) ∧
      copied.tree.node? ["copy"] = some (.file [1, 2, 3]) ∧
      (onShelf (.remove identified)).run.run.run after = (.ok (.deleted note.identity), left) ∧
      ((onShelf (.get named none)).run.run.run left).1
        = .error (.ofStore (.nameNotFound "note" (⟨3⟩ : Uuid).toText)) := by
  intro world words named identified
  let entries := [("k", "v=w"), ("t", "1"), ("k", "")]
  let given : Given := { values := [(.name, "note"),
    (.owner, "00000000-0000-0000-0000-000000000003"), (.metadata, "k=v=w"), (.metadata, "t=1"),
    (.metadata, "k="), (.file, "/keep")] }
  let putting := onShelf (.put ⟨"/keep", "note", "00000000-0000-0000-0000-000000000003", none,
    entries⟩)
  have stored : (putting.run.run.run world).1 = .ok (.stored note) := by decide +kernel
  have tags : ∀ entry ∈ entries, IsTag entry.1 := by
    have each : ∀ entry ∈ entries, entry.1 ≠ "" ∧ '=' ∉ entry.1.toList ∧
        entry.1 ∉ meaningfulKeys := by decide
    exact fun entry member => ⟨(each entry member).1, (each entry member).2.1,
      (each entry member).2.2⟩
  have fits : note.metadata.FitsWords := ⟨by decide +kernel, by decide +kernel⟩
  obtain ⟨object, same, described, _, finds, copies, removes⟩ :=
    @stored_file_round_trips world _ ["b"] putting given entries "/b" "/keep" [1, 2, 3] _
      (by decide +kernel) (by decide +kernel) tags rfl (by decide +kernel) rfl (by decide +kernel)
      (Prod.fst_eq_iff.1 stored) (fun object same => Report.stored.inj same ▸ fits)
  obtain rfl := Report.stored.inj same
  have means : named.Means note :=
    @Target.Means.named note ⟨3⟩ _ (by decide +kernel) (by decide +kernel)
  have meansIdentity : identified.Means note := .identity (by decide +kernel)
  have findsAfter : ∀ command, (onShelf command).Finds (putting.run.run.run world).2 ["b"]
      ((putting.run.run.run world).2.tree.contentsAt ["b"]) :=
    fun _ => ⟨finds.path, finds.opens, finds.holds⟩
  obtain ⟨copied, copy, written, _⟩ := copies (onShelf (.get named (some "/copy"))) _ named "/copy"
    ["copy"] (findsAfter _) means rfl ⟨by decide +kernel, by decide⟩
  obtain ⟨left, removal, findsLeft, absent⟩ :=
    removes (onShelf (.remove identified)) _ identified (findsAfter _) meansIdentity rfl
  have shown := absent (onShelf (.get named none)) left named
    ⟨findsLeft.path, findsLeft.opens, findsLeft.holds⟩ means (.inr ⟨none, rfl, by simp⟩)
  exact ⟨putting, _, copied, left, by decide +kernel, Prod.fst_eq_iff.1 stored,
    described.tags "k" "" ⟨[("k", "v=w"), ("t", "1")], [], rfl, by simp⟩, copy, written, removal,
    shown⟩

end Command

end Depot
