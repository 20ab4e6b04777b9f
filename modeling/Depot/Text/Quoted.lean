import Depot.Text.Hexadecimal
import Depot.Text.Shape

/-!
# Quoted text

A text between double quotes, in which quotes, backslashes, line breaks and tabs
are escaped, and characters without a shape of their own are written as code
points. Log lines and descriptions show text in this form.
-/

namespace Depot.Text

/-- The hexadecimal digits of a number without leading zeros. -/
def shortHexadecimal (number : Nat) : List Char := Nat.toDigits 16 number

/-- A character written as its code point. -/
def escapedCodePoint (character : Char) : List Char :=
  ['\\', 'u', '\x7b'] ++ shortHexadecimal character.toNat ++ ['\x7d']

/-- A character as it stands between quotes. -/
def quotedCharacter (character : Char) : List Char :=
  if character = '\x00' then ['\\', '0']
  else if character = '\t' then ['\\', 't']
  else if character = '\r' then ['\\', 'r']
  else if character = '\n' then ['\\', 'n']
  else if character = '"' then ['\\', '"']
  else if character = '\\' then ['\\', '\\']
  else if ' ' ≤ character ∧ character ≤ '~' then [character]
  else if isAttaching character || !isPrintable character then escapedCodePoint character
  else [character]

/-- A text between quotes. -/
def quoted (text : String) : String :=
  String.ofList (['"'] ++ text.toList.flatMap quotedCharacter ++ ['"'])

/-- A text that may be missing, as descriptions show it. -/
def quotedOption : Option String → String
  | none => "None"
  | some text => "Some(" ++ quoted text ++ ")"

end Depot.Text
