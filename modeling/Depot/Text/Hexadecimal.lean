/-!
# Hexadecimal digits

Digit characters and their values, and numbers as fixed-width digit strings.
Written digits are lowercase; either case is read.
-/

namespace Depot.Hexadecimal

/-- The lowercase digit of a value below sixteen. -/
def digit (value : Nat) : Char :=
  if value < 10 then Char.ofNat (value + 48) else Char.ofNat (value + 87)

/-- The value of a digit character of either case. -/
def value? (character : Char) : Option Nat :=
  if '0' ≤ character ∧ character ≤ '9' then some (character.toNat - 48)
  else if 'a' ≤ character ∧ character ≤ 'f' then some (character.toNat - 87)
  else if 'A' ≤ character ∧ character ≤ 'F' then some (character.toNat - 55)
  else none

/-- The last `count` digits of a number, most significant first. -/
def digits : (count : Nat) → (number : Nat) → List Char
  | 0, _ => []
  | count + 1, number => digits count (number / 16) ++ [digit (number % 16)]

/-- The number that follows `high` when more digits are read. -/
def readFrom (high : Nat) : List Char → Option Nat
  | [] => some high
  | character :: rest =>
    match value? character with
    | some value => readFrom (high * 16 + value) rest
    | none => none

/-- The number that a sequence of digits spells. -/
def read? (characters : List Char) : Option Nat := readFrom 0 characters

end Depot.Hexadecimal
