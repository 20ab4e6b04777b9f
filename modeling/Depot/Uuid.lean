import Depot.Text.Hexadecimal
import Depot.Text.Utf8

/-!
# Universally unique identifiers

A 128-bit value with one canonical text and four accepted spellings of it.
Owners and object identities are such values, and an object's storage key is
the canonical text of its identity, so key order is the order of the values.
Random draws are data here: a `Source` hands out the draws it was given and
then numbered ones.
-/

namespace Depot

/-- A 128-bit identifier. -/
structure Uuid where
  /-- The value, most significant digit first in text. -/
  bits : BitVec 128
deriving DecidableEq, Repr, Inhabited

namespace Uuid

/-- Identifiers are ordered by value. -/
instance : Ord Uuid := ⟨fun left right => compare left.bits.toNat right.bits.toNat⟩

/-- The sizes of the digit groups of the canonical text. -/
def groupSizes : List Nat := [8, 4, 4, 4, 12]

/-- The 32 digits of the value. -/
def digits (uuid : Uuid) : List Char := Hexadecimal.digits 32 uuid.bits.toNat

/-- Digits in groups with a hyphen between any two groups. -/
def hyphenate : List Nat → List Char → List Char
  | [], _ => []
  | [size], characters => characters.take size
  | size :: sizes, characters =>
    characters.take size ++ '-' :: hyphenate sizes (characters.drop size)

/-- The canonical text: lowercase digits in five hyphenated groups. -/
def toText (uuid : Uuid) : String := String.ofList (hyphenate groupSizes uuid.digits)

/-- The first eight digits, for log lines. -/
def shortText (uuid : Uuid) : String := String.ofList (uuid.digits.take 8)

/-- An identity in descriptions. -/
def describe (uuid : Uuid) : String := "ObjectId(" ++ uuid.shortText ++ ")"

/-- The storage key of an identity: the bytes of its canonical text. -/
def key (uuid : Uuid) : Bytes := Utf8.encode uuid.toText

/-- The characters of hyphenated groups without the hyphens, if every group has
its size and hyphens stand between groups and nowhere else. -/
def ungroup : List Nat → List Char → Option (List Char)
  | [], characters => if characters.isEmpty then some [] else none
  | [size], characters => if characters.length = size then some characters else none
  | size :: sizes, characters =>
    match characters.drop size with
    | '-' :: rest => (ungroup sizes rest).map (characters.take size ++ ·)
    | _ => none

/-- The identifier that 32 digits spell. -/
def ofDigits? (characters : List Char) : Option Uuid :=
  if characters.length = 32 then
    (Hexadecimal.read? characters).map fun value => ⟨BitVec.ofNat 128 value⟩
  else none

/-- The identifier that five hyphenated groups spell. -/
def ofHyphenated? (characters : List Char) : Option Uuid :=
  (ungroup groupSizes characters).bind ofDigits?

/-- The name-space marker of the longest spelling. -/
def urnMarker : List Char := "urn:uuid:".toList

/-- Reads the spelling that the number of characters announces: 32 for plain
digits, 36 for hyphenated groups, 38 for groups in braces, 45 for groups after
`urn:uuid:`. Digits and marker may have either case; nothing is trimmed. -/
def ofCharacters? (characters : List Char) : Option Uuid :=
  match characters.length with
  | 32 => ofDigits? characters
  | 36 => ofHyphenated? characters
  | 38 =>
    if characters.head? = some '\x7b' ∧ characters.getLast? = some '\x7d' then
      ofHyphenated? (characters.drop 1).dropLast
    else none
  | 45 =>
    if (characters.take 9).map Char.toLower = urnMarker then
      ofHyphenated? (characters.drop 9)
    else none
  | _ => none

/-- The identifier that a text spells in one of the accepted ways. -/
def parse? (text : String) : Option Uuid := ofCharacters? text.toList

/-- Whether a text spells an identifier. -/
def isSpelling (text : String) : Bool := (parse? text).isSome

/-- A spelling brought into canonical form; any other text as it is. -/
def canonicalise (text : String) : String :=
  match parse? text with
  | some uuid => uuid.toText
  | none => text

/-- The bits of a draw that a random identifier keeps: all but the version
digit and the two variant bits. -/
def randomMask : BitVec 128 := 0xFFFFFFFFFFFF0FFF3FFFFFFFFFFFFFFF#128

/-- The version and variant of a random identifier. -/
def randomMarker : BitVec 128 := 0x00000000000040008000000000000000#128

/-- The random identifier of a 128-bit draw. -/
def ofDraw (draw : BitVec 128) : Uuid := ⟨draw &&& randomMask ||| randomMarker⟩

/-- A supply of random draws: first the given ones, then numbered ones. -/
structure Source where
  /-- Draws still to be handed out. -/
  given : List (BitVec 128) := []
  drawn : Nat := 0
deriving DecidableEq, Repr, Inhabited

/-- The draw that stands for the `count`-th one when none is given: the count
as a 32-bit word, four times over. -/
def numberedDraw (count : Nat) : BitVec 128 :=
  let word := BitVec.ofNat 32 count
  (word ++ word ++ word ++ word : BitVec (32 + 32 + 32 + 32))

/-- The next random identifier and the supply after it. -/
def Source.next (source : Source) : Uuid × Source :=
  match source.given with
  | draw :: rest => (ofDraw draw, ⟨rest, source.drawn + 1⟩)
  | [] => (ofDraw (numberedDraw (source.drawn + 1)), ⟨[], source.drawn + 1⟩)

end Uuid

end Depot
