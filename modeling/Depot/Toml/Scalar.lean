import Depot.Text.Hexadecimal
import Depot.Toml.Value

/-!
# Words in TOML

Numbers, moments and truth values are words: runs of letters, digits and the
marks `+ - _ . :`. A word is taken whole and then classified, so nothing is left
over that could follow a value.
-/

namespace Depot.Toml

/-- The decimal digits. -/
def isDigit (character : Char) : Bool := '0' ≤ character && character ≤ '9'

/-- Whether a character can belong to a word. -/
def isWordCharacter (character : Char) : Bool :=
  character.isAlphanum || character = '+' || character = '-' || character = '_'
    || character = '.' || character = ':'

/-- The digits of a run in which a single underscore may stand between any two
digits. -/
def ungrouped? : List Char → Option (List Char)
  | [] => none
  | [digit] => if digit = '_' then none else some [digit]
  | digit :: '_' :: rest => if digit = '_' then none else (ungrouped? rest).map (digit :: ·)
  | digit :: rest => if digit = '_' then none else (ungrouped? rest).map (digit :: ·)

/-- Where numbers become too large to be read on. -/
def numberLimit : Nat := 1 <<< 64

/-- The number that follows `high` when more digits to a base are read. A number that
has reached the limit takes no further digit. -/
def numberFrom (base : Nat) (high : Nat) : List Char → Option Nat
  | [] => some high
  | digit :: rest =>
    match Hexadecimal.value? digit with
    | some value =>
      if value < base ∧ high < numberLimit then numberFrom base (high * base + value) rest
      else none
    | none => none

/-- The number that grouped digits to a base spell. -/
def grouped? (base : Nat) (characters : List Char) : Option Nat :=
  (ungrouped? characters).bind (numberFrom base 0)

/-- Grouped decimal digits, of which a leading zero stands alone. -/
def plainDigits? (characters : List Char) : Option (List Char) :=
  if characters.head? = some '0' && characters != ['0'] then none
  else (ungrouped? characters).filter (·.all isDigit)

/-- A sign, if there is one, and what it is put before. -/
def splitSign : List Char → Bool × List Char
  | '+' :: rest => (false, rest)
  | '-' :: rest => (true, rest)
  | characters => (false, characters)

/-- The whole number of a word, in any of the four bases; only decimal digits may
have a sign. -/
def wholeNumber? : List Char → Option Int
  | '0' :: 'x' :: digits => (grouped? 16 digits).map Int.ofNat
  | '0' :: 'o' :: digits => (grouped? 8 digits).map Int.ofNat
  | '0' :: 'b' :: digits => (grouped? 2 digits).map Int.ofNat
  | word =>
    let (negative, digits) := splitSign word
    ((plainDigits? digits).bind (numberFrom 10 0)).map fun number =>
      if negative then -(number : Int) else number

/-- Whole numbers have 64 bits, sign included. -/
def integer? (word : List Char) : Option Int :=
  (wholeNumber? word).filter fun number =>
    Int64.minValue.toInt ≤ number ∧ number ≤ Int64.maxValue.toInt

/-- Where decimal numbers become too large for a double: halfway between the
largest one and the next step. -/
def decimalLimit : Nat := 1 <<< 1024 - 1 <<< 970

/-- How many decimal digits the limit has. -/
def limitWidth : Nat := 309

/-- The whole number that decimal digits spell. -/
def digitsValue (digits : List Char) : Nat :=
  digits.foldl (fun high digit => high * 10 + (digit.toNat - '0'.toNat)) 0

/-- Whether the number of the digits, followed by a power of ten, is too large for a
double. How many digits stand before the point decides, unless they are as many as
those of the limit. -/
def isTooLarge (digits : List Char) (exponent : Int) : Bool :=
  let significant := digits.dropWhile (· = '0')
  let width := significant.length + exponent
  if significant.isEmpty || width < limitWidth then false
  else if limitWidth < width then true
  else
    decimalLimit ≤ digitsValue ((significant.take limitWidth).rightpad limitWidth '0')

/-- Where an exponent is large enough to take no further digits. -/
def exponentLimit : Nat := 1 <<< 16

/-- The exponent that `high` becomes when more digits are read. Digits after the one
with which it reaches the limit do not count. -/
def exponentFrom (high : Nat) : List Char → Option Nat
  | [] => some high
  | digit :: rest =>
    if isDigit digit then
      exponentFrom (if high < exponentLimit then high * 10 + (digit.toNat - '0'.toNat) else high)
        rest
    else none

/-- The exponent that ends a decimal number, if it has one. -/
def exponent? : List Char → Option Int
  | [] => some 0
  | mark :: rest =>
    if mark = 'e' || mark = 'E' then
      let (negative, digits) := splitSign rest
      ((ungrouped? digits).bind (exponentFrom 0)).map fun number =>
        if negative then -(number : Int) else number
    else none

/-- The digits and the exponent of a decimal number without sign. A fraction has
digits on both sides of its point. -/
def unsignedDecimal? (characters : List Char) : Option (List Char × Int) := do
  let belongs := fun character => isDigit character || character = '_'
  let whole ← plainDigits? (characters.takeWhile belongs)
  match characters.dropWhile belongs with
  | [] => none
  | '.' :: rest =>
    let fraction ← ungrouped? (rest.takeWhile belongs)
    let exponent ← exponent? (rest.dropWhile belongs)
    return (whole ++ fraction, exponent - fraction.length)
  | rest => return (whole, ← exponent? rest)

/-- Whether a word is a decimal number or one of the special ones. Too large a
number is refused unless it is negative. -/
def isDecimal (word : List Char) : Bool :=
  let (negative, unsigned) := splitSign word
  if unsigned = ['i', 'n', 'f'] || unsigned = ['n', 'a', 'n'] then true
  else
    match unsignedDecimal? unsigned with
    | some (digits, exponent) => negative || !isTooLarge digits exponent
    | none => false

/-- The number of exactly two digits, if it lies in the range. -/
def twoDigits? (low high : Nat) (tens ones : Char) : Option Nat :=
  if isDigit tens && isDigit ones then
    (numberFrom 10 0 [tens, ones]).filter fun number => low ≤ number ∧ number ≤ high
  else none

/-- How many days a month has. -/
def monthLength (year month : Nat) : Nat :=
  if month = 2 then
    if year % 4 = 0 ∧ (year % 100 ≠ 0 ∨ year % 400 = 0) then 29 else 28
  else if month = 4 ∨ month = 6 ∨ month = 9 ∨ month = 11 then 30
  else 31

/-- Reads a date off the front of a word. -/
def afterDate? : List Char → Option (List Char)
  | y₁ :: y₂ :: y₃ :: y₄ :: '-' :: m₁ :: m₂ :: '-' :: d₁ :: d₂ :: rest => do
    let year ← if [y₁, y₂, y₃, y₄].all isDigit then numberFrom 10 0 [y₁, y₂, y₃, y₄] else none
    let month ← twoDigits? 1 12 m₁ m₂
    let day ← twoDigits? 1 31 d₁ d₂
    if day ≤ monthLength year month then some rest else none
  | _ => none

/-- Passes over the fraction of a second, if there is one. -/
def afterFraction : List Char → List Char
  | '.' :: digit :: rest =>
    if isDigit digit then rest.dropWhile isDigit else '.' :: digit :: rest
  | characters => characters

/-- Reads a time of day off the front of a word; a minute may have a leap second. -/
def afterTime? : List Char → Option (List Char)
  | h₁ :: h₂ :: ':' :: m₁ :: m₂ :: ':' :: s₁ :: s₂ :: rest => do
    let _ ← twoDigits? 0 23 h₁ h₂
    let _ ← twoDigits? 0 59 m₁ m₂
    let _ ← twoDigits? 0 60 s₁ s₂
    some (afterFraction rest)
  | _ => none

/-- Whether characters are nothing or a distance from universal time. -/
def isOffset : List Char → Bool
  | [] => true
  | [mark] => mark = 'Z' || mark = 'z'
  | [sign, h₁, h₂, ':', m₁, m₂] =>
    (sign = '+' || sign = '-') && (twoDigits? 0 23 h₁ h₂).isSome && (twoDigits? 0 59 m₁ m₂).isSome
  | _ => false

/-- Whether characters are a time of day, possibly with an offset. -/
def isOffsetTime (characters : List Char) : Bool := (afterTime? characters).any isOffset

/-- Whether a word is a date, a time of day, or a date and a time with a `T`
between them. -/
def isMoment (word : List Char) : Bool :=
  match afterDate? word with
  | some [] => true
  | some (mark :: rest) => (mark = 'T' || mark = 't') && isOffsetTime rest
  | none => afterTime? word = some []

/-- The value of a word. -/
def Value.ofWord? (word : List Char) : Option Value :=
  if word = ['t', 'r', 'u', 'e'] then some (.boolean true)
  else if word = ['f', 'a', 'l', 's', 'e'] then some (.boolean false)
  else if isMoment word then some .moment
  else if isDecimal word then some .decimal
  else (integer? word).map Value.integer

end Depot.Toml
