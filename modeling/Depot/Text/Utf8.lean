/-!
# Text as bytes

The UTF-8 form of text, the reader that gives text back or says where and how
the bytes stop being text, and the forgiving reader for messages. The front of
a byte sequence is classified once, by `head`, and both readers follow it.
-/

namespace Depot

/-- Raw bytes: the stuff of keys, values, records and files. -/
abbrev Bytes := List UInt8

namespace Utf8

/-- Where bytes stop being text, and how much of them is to blame. -/
structure Fault where
  position : Nat
  /-- The length of the broken sequence, or `none` if the bytes end inside a
  sequence that was sound so far. -/
  width : Option Nat
deriving DecidableEq, Repr

/-- The wording of a fault. -/
def Fault.message (fault : Fault) : String :=
  match fault.width with
  | some width => s!"invalid utf-8 sequence of {width} bytes from index {fault.position}"
  | none => s!"incomplete utf-8 byte sequence from index {fault.position}"

/-- The bytes of a text. -/
def encode (text : String) : Bytes := text.toList.flatMap String.utf8EncodeChar

/-- What stands at the front of a non-empty byte sequence. -/
inductive Head where
  | character (value : Char) (continuation : Nat)
  /-- A broken sequence of one byte more than `continuation`. -/
  | broken (continuation : Nat)
  /-- The sequence is sound as far as it goes, but the bytes end inside it. -/
  | cut
deriving DecidableEq, Repr

/-- Whether a byte continues a sequence. -/
def isContinuation (byte : UInt8) : Bool := 0x80 ≤ byte && byte ≤ 0xBF

/-- Whether the second byte of a three-byte sequence may follow `first`: it
excludes overlong forms and surrogates. -/
def mayFollowThree (first second : UInt8) : Bool :=
  if first = 0xE0 then 0xA0 ≤ second && second ≤ 0xBF
  else if first = 0xED then 0x80 ≤ second && second ≤ 0x9F
  else isContinuation second

/-- Whether the second byte of a four-byte sequence may follow `first`: it
excludes overlong forms and values above the last code point. -/
def mayFollowFour (first second : UInt8) : Bool :=
  if first = 0xF0 then 0x90 ≤ second && second ≤ 0xBF
  else if first = 0xF4 then 0x80 ≤ second && second ≤ 0x8F
  else isContinuation second

/-- The six payload bits of a continuation byte, or what a lead byte holds
above the marker `base`. -/
def bitsAbove (base : Nat) (byte : UInt8) : Nat := byte.toNat - base

/-- Classifies a two-byte sequence. -/
def headOfTwo (first : UInt8) : Bytes → Head
  | [] => .cut
  | second :: _ =>
    if isContinuation second then
      .character (Char.ofNat (bitsAbove 0xC0 first * 64 + bitsAbove 0x80 second)) 1
    else .broken 0

/-- Classifies a three-byte sequence. -/
def headOfThree (first : UInt8) : Bytes → Head
  | [] => .cut
  | second :: rest =>
    if mayFollowThree first second then
      match rest with
      | [] => .cut
      | third :: _ =>
        if isContinuation third then
          .character (Char.ofNat (bitsAbove 0xE0 first * 4096 + bitsAbove 0x80 second * 64
            + bitsAbove 0x80 third)) 2
        else .broken 1
    else .broken 0

/-- Classifies a four-byte sequence. -/
def headOfFour (first : UInt8) : Bytes → Head
  | [] => .cut
  | second :: rest =>
    if mayFollowFour first second then
      match rest with
      | [] => .cut
      | third :: last =>
        if isContinuation third then
          match last with
          | [] => .cut
          | fourth :: _ =>
            if isContinuation fourth then
              .character (Char.ofNat (bitsAbove 0xF0 first * 262144 + bitsAbove 0x80 second * 4096
                + bitsAbove 0x80 third * 64 + bitsAbove 0x80 fourth)) 3
            else .broken 2
        else .broken 1
    else .broken 0

/-- Classifies the front of the non-empty sequence `first :: rest`. -/
def head (first : UInt8) (rest : Bytes) : Head :=
  if first < 0x80 then .character (Char.ofNat first.toNat) 0
  else if first < 0xC2 then .broken 0
  else if first < 0xE0 then headOfTwo first rest
  else if first < 0xF0 then headOfThree first rest
  else if first < 0xF5 then headOfFour first rest
  else .broken 0

/-- The characters of bytes that start at `position` of a longer sequence. -/
def decodeFrom (position : Nat) : Bytes → Except Fault (List Char)
  | [] => .ok []
  | first :: rest =>
    match head first rest with
    | .character value continuation =>
      match decodeFrom (position + continuation + 1) (rest.drop continuation) with
      | .ok values => .ok (value :: values)
      | .error fault => .error fault
    | .broken continuation => .error ⟨position, some (continuation + 1)⟩
    | .cut => .error ⟨position, none⟩
termination_by bytes => bytes.length
decreasing_by simp only [List.length_drop, List.length_cons]; omega

/-- The text that the bytes spell, or the first place where they spell none. -/
def decode (bytes : Bytes) : Except Fault String := (decodeFrom 0 bytes).map String.ofList

/-- The characters of the bytes, with one replacement character for every
broken sequence and one for a sequence that the end cuts short. -/
def lossyCharacters : Bytes → List Char
  | [] => []
  | first :: rest =>
    match head first rest with
    | .character value continuation => value :: lossyCharacters (rest.drop continuation)
    | .broken continuation => '\uFFFD' :: lossyCharacters (rest.drop continuation)
    | .cut => ['\uFFFD']
termination_by bytes => bytes.length
decreasing_by all_goals simp only [List.length_drop, List.length_cons]; omega

/-- The text of the bytes, where whatever is no text shows as a replacement
character. -/
def decodeLossy (bytes : Bytes) : String := String.ofList (lossyCharacters bytes)

end Utf8

end Depot
