import Depot.Command.Parameter
import Depot.Object
import Depot.Reconciliation.Report
import Depot.Text.Json

/-!
# Reports

What a command has to say when it succeeds, as data, and the two forms in which
it says it: lines for people, with or without colours, and one line of JSON.
-/

namespace Depot.Command

/-- What a command has done or found. -/
inductive Report where
  | initialized (path : String)
  | stored (object : Object)
  | shown (object : Object)
  | copied (identity : Uuid) (size : Nat) (path : String)
  | fetched (objects : List Object)
  | deletedMatches (count : Nat)
  | deleted (identity : Uuid)
  | reconciled (report : Reconciliation.Report)
deriving DecidableEq

/-- How a part of a line stands out. -/
inductive Style where
  | success
  | identity
  /-- A name, a path or a count. -/
  | strong
  | owner
deriving DecidableEq, Repr

/-- The start of an escape sequence that changes the style of a terminal. -/
def escapeStart : List Char := ['\x1b', '[']

/-- The escape sequence that begins a style. -/
def Style.start : Style → List Char
  | .success => escapeStart ++ ['1', ';', '3', '2', 'm']
  | .identity => escapeStart ++ ['3', '3', 'm']
  | .strong => escapeStart ++ ['1', 'm']
  | .owner => escapeStart ++ ['3', '6', 'm']

/-- The escape sequence that ends every style. -/
def styleEnd : List Char := escapeStart ++ ['0', 'm']

/-- Text in which a style begins again wherever the text itself ends it. -/
def resumed (start : List Char) : List Char → List Char
  | [] => []
  | '\x1b' :: '[' :: '0' :: 'm' :: rest => styleEnd ++ start ++ resumed start rest
  | character :: rest => character :: resumed start rest

/-- Text in a style, where colours are wanted. -/
def Style.paint (style : Style) (coloured : Bool) (text : String) : String :=
  if coloured then String.ofList (style.start ++ resumed style.start text.toList ++ styleEnd)
  else text

/-- A line with the mark of success. -/
def successLine (coloured : Bool) (line : String) : String :=
  Style.success.paint coloured "✓" ++ " " ++ line ++ "\n"

/-- The keys that have lines of their own when an object is shown. -/
def shownKeys : List String :=
  [Metadata.Key.id.text, Metadata.Key.name.text, Metadata.Key.owner.text]

/-- The lines that show an object. -/
def objectLines (coloured : Bool) (object : Object) : String :=
  let further := object.metadata.toList.filter fun entry => !shownKeys.contains entry.1
  Style.identity.paint coloured object.identity.toText ++ "  "
    ++ Style.strong.paint coloured object.name ++ "\n"
    ++ "  Owner: " ++ Style.owner.paint coloured object.owner ++ "\n"
    ++ "  Size: " ++ toString object.size ++ " bytes\n"
    ++ String.join (further.map fun entry => "  " ++ entry.1 ++ ": " ++ entry.2 ++ "\n")

/-- An object in JSON. -/
def objectJson (object : Object) : Text.Json :=
  .object [
    ("id", .text object.identity.toText),
    ("metadata", .object (object.metadata.toList.map fun entry => (entry.1, .text entry.2))),
    ("name", .text object.name),
    ("owner", .text object.owner),
    ("size", .number object.size)]

namespace Report

/-- A report as lines. -/
def lines (coloured : Bool) : Report → String
  | .initialized path =>
    successLine coloured ("Initialized bucket in " ++ Style.strong.paint coloured path)
  | .stored object =>
    successLine coloured ("Stored " ++ Style.strong.paint coloured object.name ++ " ("
      ++ toString object.size ++ " bytes) as "
      ++ Style.identity.paint coloured object.identity.toText)
  | .shown object => objectLines coloured object
  | .copied _ size path =>
    successLine coloured ("Wrote " ++ toString size ++ " bytes to "
      ++ Style.strong.paint coloured path)
  | .fetched [] => "No matching objects.\n"
  | .fetched objects =>
    String.join (objects.map (objectLines coloured)) ++ "\n"
      ++ Style.strong.paint coloured (toString objects.length) ++ " object(s)\n"
  | .deletedMatches count => successLine coloured ("Deleted " ++ toString count ++ " object(s)")
  | .deleted identity =>
    successLine coloured ("Deleted " ++ Style.identity.paint coloured identity.toText)
  | .reconciled report =>
    if report.isClean then successLine coloured "No issues."
    else
      successLine coloured ("Repaired " ++ toString report.total ++ " issue(s)")
        ++ "  Orphaned payloads: " ++ toString report.orphanedPayloads ++ "\n"
        ++ "  Orphaned metadata: " ++ toString report.orphanedRecords ++ "\n"
        ++ "  Restored names: " ++ toString report.restoredNames ++ "\n"
        ++ "  Dangling names: " ++ toString report.danglingNames ++ "\n"

/-- A report in JSON. -/
def json : Report → Text.Json
  | .initialized path => .object [("bucket", .text path)]
  | .stored object | .shown object => objectJson object
  | .copied identity size _ =>
    .object [("bytes", .number size), ("id", .text identity.toText)]
  | .fetched objects => .list (objects.map objectJson)
  | .deletedMatches count => .object [("deleted", .number count)]
  | .deleted identity => .object [("deleted", .text identity.toText)]
  | .reconciled report =>
    .object [
      ("dangling_names", .number report.danglingNames),
      ("orphaned_metadata", .number report.orphanedRecords),
      ("orphaned_payloads", .number report.orphanedPayloads),
      ("restored_names", .number report.restoredNames)]

/-- A report in a format. Colours are for people. -/
def render (report : Report) (format : Format) (coloured : Bool) : String :=
  match format with
  | .text => report.lines coloured
  | .json => report.json.render ++ "\n"

end Report

end Depot.Command
