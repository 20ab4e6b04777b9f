import Depot.Text.Hexadecimal

/-!
# JSON text

The JSON values that reports are made of, and their text without any spaces.
Members of an object are written in the order in which they are given.
-/

namespace Depot.Text

/-- A JSON value of a report. -/
inductive Json where
  | text (content : String)
  | number (value : Nat)
  | list (items : List Json)
  | object (members : List (String × Json))

namespace Json

/-- A character as it stands between quotes. -/
def escaped (character : Char) : List Char :=
  if character = '"' then ['\\', '"']
  else if character = '\\' then ['\\', '\\']
  else if character = '\x08' then ['\\', 'b']
  else if character = '\t' then ['\\', 't']
  else if character = '\n' then ['\\', 'n']
  else if character = '\x0c' then ['\\', 'f']
  else if character = '\r' then ['\\', 'r']
  else if character < ' ' then ['\\', 'u'] ++ Hexadecimal.digits 4 character.toNat
  else [character]

/-- A text between quotes. -/
def quote (text : String) : String :=
  String.ofList (['"'] ++ text.toList.flatMap escaped ++ ['"'])

mutual

/-- The text of a value. -/
def render : Json → String
  | .text content => quote content
  | .number value => toString value
  | .list items => "[" ++ ",".intercalate (renderItems items) ++ "]"
  | .object members => "\x7b" ++ ",".intercalate (renderMembers members) ++ "\x7d"

/-- The texts of the items of a list. -/
def renderItems : List Json → List String
  | [] => []
  | item :: rest => render item :: renderItems rest

/-- The texts of the members of an object. -/
def renderMembers : List (String × Json) → List String
  | [] => []
  | (name, value) :: rest => (quote name ++ ":" ++ render value) :: renderMembers rest

end

end Json

end Depot.Text
