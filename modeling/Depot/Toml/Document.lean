import Depot.Toml.Scalar
import Depot.Toml.Text

/-!
# TOML documents

A document is a sequence of statements: headers, which say what table the
following keys belong to, and keys with their values. This module reads the
statements and then builds the table that they describe.
-/

namespace Depot.Toml

/-- A key with the keys of the tables that lead to it. -/
structure Key where
  /-- The keys of the tables, outermost first. -/
  path : List String
  name : String
deriving DecidableEq, Repr

/-- What a document says in one line. -/
inductive Statement where
  | header (key : Key)
  | element (key : Key)
  | assignment (key : Key) (value : Value)

/-- How deep values and keys may be nested. -/
def depthLimit : Nat := 80

namespace Reader

/-- Whether a character may stand in a key without quotes. -/
def isBareCharacter (character : Char) : Bool :=
  character.isAlphanum || character = '_' || character = '-'

/-- Takes one part of a key. -/
def keyPart : Reader String := do
  match ← peek with
  | some '"' | some '\'' => quotedLine
  | _ =>
    let characters ← takeWhile isBareCharacter
    if characters.isEmpty then failure
    return String.ofList characters

/-- Takes the parts of a key, at most `parts` of them. -/
def keyParts : (parts : Nat) → Reader Key
  | 0 => failure
  | parts + 1 => do
    blanks
    let part ← keyPart
    blanks
    if ← accept '.' then
      let rest ← keyParts parts
      return { rest with path := part :: rest.path }
    else return ⟨[], part⟩

/-- Takes a key, blanks around its parts included. -/
def key : Reader Key := keyParts (depthLimit - 1)

/-- Takes a word and gives its value. A time may follow a date after one space. -/
def word : Reader Value := do
  let characters ← takeWhile isWordCharacter
  match ← get with
  | ' ' :: next :: rest =>
    if afterDate? characters = some [] && isDigit next then
      set (next :: rest)
      let time ← takeWhile isWordCharacter
      if isOffsetTime time then return .moment else failure
    else StateT.lift (Value.ofWord? characters)
  | _ => StateT.lift (Value.ofWord? characters)

/-- Takes the items of an array and its closing bracket. A comma may follow the
last item. -/
def items (item : Reader Value) : Nat → Reader (List Value)
  | 0 => failure
  | count + 1 => do
    spacing
    if ← accept ']' then return []
    let first ← item
    spacing
    if ← accept ',' then
      let rest ← items item count
      return first :: rest
    demand ']'
    return [first]

/-- Takes a key, an equals sign and a value. -/
def assignment (value : Reader Value) : Reader (Key × Value) := do
  let key ← key
  demand '='
  blanks
  let value ← value
  return (key, value)

/-- Takes the assignments in an inline table, of which there is at least one, and
its closing brace. -/
def pairs (value : Reader Value) : Nat → Reader (List (Key × Value))
  | 0 => failure
  | count + 1 => do
    let first ← assignment value
    blanks
    if ← accept ',' then
      let rest ← pairs value count
      return first :: rest
    demand '\x7d'
    return [first]

/-- Carries an assignment out in a table. -/
def assign (table : Table) (entry : Key × Value) : Option Table :=
  table.assign entry.1.path entry.1.name entry.2

/-- The inline table that assignments describe. -/
def inlineTable (assignments : List (Key × Value)) : Option Value :=
  (assignments.foldlM assign ⟨.inline, []⟩).map Table.toValue

/-- Takes a value inside which `depth` levels of arrays and inline tables are
still allowed, each with at most `count` parts. -/
def valueWithin (count : Nat) : (depth : Nat) → Reader Value
  | 0 => do
    match ← peek with
    | some '"' | some '\'' => return .text (← quotedText)
    | _ => word
  | depth + 1 => do
    match ← peek with
    | some '"' | some '\'' => return .text (← quotedText)
    | some '[' =>
      demand '['
      let values ← items (valueWithin count depth) count
      return .array values
    | some '\x7b' =>
      demand '\x7b'
      blanks
      if ← accept '\x7d' then return .table .inline []
      let assignments ← pairs (valueWithin count depth) count
      StateT.lift (inlineTable assignments)
    | _ => word

/-- Takes a value with at most `count` parts at every level. -/
def value (count : Nat) : Reader Value := valueWithin count (depthLimit - 1)

/-- Takes a statement and the end of its line. The value in it has at most `count`
parts at every level. -/
def statement (count : Nat) : Reader Statement := do
  if ← acceptAll ['[', '['] then
    let key ← key
    unless ← acceptAll [']', ']'] do failure
    lineEnd
    return .element key
  else if ← accept '[' then
    let key ← key
    demand ']'
    lineEnd
    return .header key
  else
    let (key, value) ← assignment (value count)
    lineEnd
    return .assignment key value

/-- Takes all statements up to the end, a line at a time. Values in them have at most
`count` parts at every level. -/
def statements (count : Nat) : (lines : Nat) → Reader (List Statement)
  | 0 => failure
  | lines + 1 => do
    blanks
    match ← peek with
    | none => return []
    | some '#' | some '\n' | some '\r' =>
      lineEnd
      statements count lines
    | some _ =>
      let first ← statement count
      let rest ← statements count lines
      return first :: rest

/-- Takes the mark that may open a text in its encoding. -/
def openingMark : Reader Unit := do
  let _ ← accept '\uFEFF'

end Reader

/-- A table under construction: the whole of it, and the header in force. -/
structure Draft where
  root : Table := ⟨.header, []⟩
  /-- Where the following keys belong. -/
  place : List String := []

/-- Adds what a statement says. -/
def Draft.add (draft : Draft) : Statement → Option Draft
  | .header key => do
    let root ← draft.root.openHeader key.path key.name
    return ⟨root, key.path ++ [key.name]⟩
  | .element key => do
    let root ← draft.root.openElement key.path key.name
    return ⟨root, key.path ++ [key.name]⟩
  | .assignment key value => do
    let root ← Table.alter .header (Table.assign key.path key.name value) draft.place draft.root
    return { draft with root }

/-- The statements of a text. It has fewer lines than characters, and so have its
values parts. -/
def statements? (text : String) : Option (List Statement) :=
  let characters := text.toList
  let count := characters.length + 1
  let document := do
    Reader.openingMark
    Reader.statements count count
  (document.run characters).map Prod.fst

/-- The table that a text describes. -/
def document? (text : String) : Option Table := do
  let statements ← statements? text
  let draft ← statements.foldlM Draft.add {}
  return draft.root

end Depot.Toml
