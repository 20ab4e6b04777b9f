import Mathlib.Data.List.Basic
import Mathlib.Data.List.Induction
import Depot.Proofs.Uuid

/-!
# Spellings of identifiers

A text spells an identifier if, in small letters, it is one of four: the digits, the digits in
hyphenated groups, the groups in braces, and the groups after the marker. Exactly these texts are
read, and as this identifier. So an accepted spelling has 45 characters at most and never contains
the separator of name keys, and a name and an owner in any accepted spelling can be read off their
key: the owner is what follows the last separator.
-/

namespace Depot

/-- The letters that have a small form. -/
def capitals : List Char := "ABCDEFGHIJKLMNOPQRSTUVWXYZ".toList

/-- A character between two others is one of those numbered between them. -/
theorem exists_ofNat_of_between {low high character : Char} (above : low ≤ character)
    (below : character ≤ high) :
    ∃ number, low.toNat ≤ number ∧ number ≤ high.toNat ∧ Char.ofNat number = character :=
  ⟨character.toNat, above, below, character.ofNat_toNat⟩

/-- A character is its own small form unless it is one of the capitals. -/
theorem toLower_eq_or_mem_capitals (character : Char) :
    character.toLower = character ∨ character ∈ capitals := by
  by_cases upper : 'A' ≤ character ∧ character ≤ 'Z'
  · obtain ⟨number, above, below, rfl⟩ := exists_ofNat_of_between upper.1 upper.2
    change 65 ≤ number at above
    change number ≤ 90 at below
    right
    interval_cases number <;> decide
  · exact .inl (dif_neg upper)

/-- A character whose small form is no letter is that form. -/
theorem eq_of_toLower_eq {character small : Char} (lowered : character.toLower = small)
    (mark : small ∉ capitals.map Char.toLower) : character = small := by
  rcases toLower_eq_or_mem_capitals character with same | capital
  · exact same.symm.trans lowered
  · exact absurd (List.mem_map.2 ⟨character, capital, lowered⟩) mark

namespace Hexadecimal

/-- Digits are read in either case. -/
theorem value?_toLower (character : Char) : value? character.toLower = value? character := by
  rcases toLower_eq_or_mem_capitals character with same | capital
  · rw [same]
  · have listed : capitals.all (fun capital => value? capital.toLower = value? capital) = true := by
      decide
    exact of_decide_eq_true (List.all_eq_true.1 listed character capital)

/-- What has a value is a digit of either case. -/
theorem mem_digits_of_value? {character : Char} {value : Nat}
    (read : value? character = some value) : character ∈ "0123456789abcdefABCDEF".toList := by
  unfold value? at read
  split at read
  · rename_i between
    obtain ⟨number, above, below, rfl⟩ := exists_ofNat_of_between between.1 between.2
    change 48 ≤ number at above
    change number ≤ 57 at below
    interval_cases number <;> decide
  split at read
  · rename_i between
    obtain ⟨number, above, below, rfl⟩ := exists_ofNat_of_between between.1 between.2
    change 97 ≤ number at above
    change number ≤ 102 at below
    interval_cases number <;> decide
  split at read
  · rename_i between
    obtain ⟨number, above, below, rfl⟩ := exists_ofNat_of_between between.1 between.2
    change 65 ≤ number at above
    change number ≤ 70 at below
    interval_cases number <;> decide
  · exact absurd read (by simp)

/-- The digits of a value are those whose small form is written for it. -/
theorem value?_eq_some_iff {character : Char} {value : Nat} :
    value? character = some value ↔ value < 16 ∧ character.toLower = digit value := by
  constructor
  · intro read
    have listed : "0123456789abcdefABCDEF".toList.all (fun written => (value? written).all
        fun value => value < 16 ∧ written.toLower = digit value) = true := by decide
    have written := List.all_eq_true.1 listed character (mem_digits_of_value? read)
    rw [read] at written
    exact of_decide_eq_true written
  · rintro ⟨bound, lowered⟩
    rw [← value?_toLower, lowered, value?_digit bound]

/-- Characters are read as a number if their small forms are its digits. -/
theorem read?_eq_some_iff {characters : List Char} {number : Nat} :
    read? characters = some number ↔
      number < 16 ^ characters.length ∧
        characters.map Char.toLower = digits characters.length number := by
  induction characters using List.reverseRecOn generalizing number with
  | nil => simp [read?, readFrom, digits, eq_comm]
  | append_singleton front last inductionHypothesis =>
      unfold read? at inductionHypothesis ⊢
      rw [readFrom_append, Option.bind_eq_some_iff]
      simp only [inductionHypothesis, readFrom, List.length_append, List.length_singleton,
        List.map_append, List.map_singleton, digits]
      constructor
      · rintro ⟨middle, ⟨bound, lowered⟩, last⟩
        split at last
        · rename_i value read
          obtain ⟨small, digit⟩ := value?_eq_some_iff.1 read
          obtain rfl := Option.some.inj last
          have quotient : (middle * 16 + value) / 16 = middle := by omega
          have remainder : (middle * 16 + value) % 16 = value := by omega
          rw [quotient, remainder, lowered, digit, Nat.pow_succ]
          exact ⟨by omega, rfl⟩
        · exact absurd last (by simp)
      · rintro ⟨bound, lowered⟩
        obtain ⟨fronts, lasts⟩ := List.append_inj' lowered rfl
        have small : number % 16 < 16 := Nat.mod_lt _ (by decide)
        have read := value?_eq_some_iff.2 ⟨small, List.singleton_inj.1 lasts⟩
        rw [Nat.pow_succ] at bound
        refine ⟨number / 16, ⟨by omega, fronts⟩, ?_⟩
        rw [read]
        simp only [Option.some.injEq]
        omega

/-- Every digit that is written is that of a value below sixteen. -/
theorem exists_of_mem_digits {count number : Nat} {character : Char}
    (member : character ∈ digits count number) : ∃ value < 16, character = digit value := by
  induction count generalizing number with
  | zero => exact absurd member List.not_mem_nil
  | succ count inductionHypothesis =>
      rcases List.mem_append.1 member with earlier | last
      · exact inductionHypothesis earlier
      · exact ⟨number % 16, Nat.mod_lt _ (by decide), List.mem_singleton.1 last⟩

/-- A written digit takes one byte. -/
theorem utf8Size_digit {value : Nat} (bound : value < 16) : (digit value).utf8Size = 1 := by
  interval_cases value <;> decide

end Hexadecimal

namespace Uuid

/-- The accepted spellings of an identifier in small letters: plain digits, groups, groups in
braces, and groups after the marker. -/
def spellings (uuid : Uuid) : List (List Char) :=
  let groups := hyphenate groupSizes uuid.digits
  [uuid.digits, groups, '\x7b' :: groups ++ ['\x7d'], urnMarker ++ groups]

/-- A text spells an identifier if it is one of the accepted spellings, in letters of either
case. -/
def Spells (uuid : Uuid) (text : String) : Prop :=
  text.toList.map Char.toLower ∈ uuid.spellings

instance (uuid : Uuid) (text : String) : Decidable (uuid.Spells text) :=
  inferInstanceAs (Decidable (_ ∈ _))

variable {characters digits : List Char} {uuid : Uuid} {text : String}

/-- Digits spell an identifier if their small forms are its digits. -/
theorem ofDigits?_eq_some_iff :
    ofDigits? characters = some uuid ↔ characters.map Char.toLower = uuid.digits := by
  unfold ofDigits?
  constructor
  · intro spelled
    split at spelled
    · rename_i size
      obtain ⟨number, read, rfl⟩ := Option.map_eq_some_iff.1 spelled
      obtain ⟨bound, lowered⟩ := Hexadecimal.read?_eq_some_iff.1 read
      rw [size] at bound lowered
      have value : (BitVec.ofNat 128 number).toNat = number := by
        rw [BitVec.toNat_ofNat]
        exact Nat.mod_eq_of_lt bound
      rw [lowered, Uuid.digits, value]
    · exact absurd spelled (by simp)
  · intro lowered
    have size : characters.length = 32 := by
      rw [← List.length_map Char.toLower, lowered, length_digits]
    rw [if_pos size]
    refine Option.map_eq_some_iff.2 ⟨uuid.bits.toNat, ?_, by simp⟩
    refine Hexadecimal.read?_eq_some_iff.2 ⟨?_, ?_⟩
    · rw [size]
      exact uuid.bits.isLt
    · rw [size]
      exact lowered

/-- A hyphen is the only character whose small form is one. -/
theorem toLower_eq_hyphen_iff {character : Char} : character.toLower = '-' ↔ character = '-' := by
  constructor
  · exact fun lowered => eq_of_toLower_eq lowered (by decide)
  · rintro rfl
    rfl

/-- Small forms are grouped as the characters are. -/
theorem ungroup_map_toLower (sizes : List Nat) (characters : List Char) :
    ungroup sizes (characters.map Char.toLower)
      = (ungroup sizes characters).map (List.map Char.toLower) := by
  induction sizes generalizing characters with
  | nil => cases characters <;> rfl
  | cons size sizes inductionHypothesis =>
      cases sizes with
      | nil =>
          simp only [ungroup, List.length_map]
          split <;> rfl
      | cons next sizes =>
          simp only [ungroup, ← List.map_drop, ← List.map_take]
          rcases characters.drop size with _ | ⟨head, rest⟩
          · rfl
          · by_cases hyphen : head = '-'
            · subst hyphen
              have lowered : Char.toLower '-' = '-' := rfl
              simp [lowered, inductionHypothesis, Function.comp_def]
            · have apart : head.toLower ≠ '-' := mt toLower_eq_hyphen_iff.1 hyphen
              simp [hyphen, apart]

/-- Groups are told apart only where they stand. -/
theorem eq_hyphenate_of_ungroup {sizes : List Nat}
    (grouped : ungroup sizes characters = some digits) :
    characters = hyphenate sizes digits := by
  induction sizes generalizing characters digits with
  | nil =>
      rw [ungroup] at grouped
      split at grouped
      · exact List.isEmpty_iff.1 ‹_›
      · exact absurd grouped (by simp)
  | cons size sizes inductionHypothesis =>
      cases sizes with
      | nil =>
          rw [ungroup] at grouped
          split at grouped
          · rename_i whole
            obtain rfl := Option.some.inj grouped
            rw [hyphenate, ← whole, List.take_length]
          · exact absurd grouped (by simp)
      | cons next sizes =>
          rw [ungroup] at grouped
          · split at grouped
            · rename_i rest dropped
              obtain ⟨others, groupedRest, rfl⟩ := Option.map_eq_some_iff.1 grouped
              have shorter : size < characters.length := by
                have present := congrArg List.length dropped
                rw [List.length_drop, List.length_cons] at present
                omega
              have enough : (characters.take size).length = size :=
                List.length_take_of_le shorter.le
              rw [hyphenate, List.take_left' enough, List.drop_left' enough,
                ← inductionHypothesis groupedRest, ← dropped, List.take_append_drop]
              simp
            · exact absurd grouped (by simp)
          · simp

/-- Groups spell an identifier if their small forms are its hyphenated digits. -/
theorem ofHyphenated?_eq_some_iff :
    ofHyphenated? characters = some uuid ↔
      characters.map Char.toLower = hyphenate groupSizes uuid.digits := by
  constructor
  · intro spelled
    obtain ⟨digits, grouped, read⟩ := Option.bind_eq_some_iff.1 spelled
    refine eq_hyphenate_of_ungroup ?_
    rw [ungroup_map_toLower, grouped, Option.map_some, ofDigits?_eq_some_iff.1 read]
  · intro lowered
    have grouped := @ungroup_hyphenate groupSizes (by decide) _ (uuid.length_digits.trans rfl)
    rw [← lowered, ungroup_map_toLower, Option.map_eq_some_iff] at grouped
    obtain ⟨digits, grouped, small⟩ := grouped
    exact Option.bind_eq_some_iff.2 ⟨digits, grouped, ofDigits?_eq_some_iff.2 small⟩

/-- Hyphenated digits are 36 characters. -/
theorem length_hyphenate_digits (uuid : Uuid) :
    (hyphenate groupSizes uuid.digits).length = 36 := by
  have size := uuid.length_toList_toText
  rwa [toText, String.toList_ofList] at size

/-- A list with an element at either end is made of these and of what stands between. -/
theorem eq_between {first last : Char} (opened : characters.head? = some first)
    (closed : characters.getLast? = some last) (several : 1 < characters.length) :
    characters = first :: (characters.drop 1).dropLast ++ [last] := by
  obtain ⟨rest, rfl⟩ := List.head?_eq_some_iff.1 opened
  obtain rfl | ⟨between, final, rfl⟩ := rest.eq_nil_or_concat
  · exact absurd several (by simp)
  · rw [List.concat_eq_append, ← List.cons_append, List.getLast?_concat] at closed
    obtain rfl := Option.some.inj closed
    simp

/-- What is read as an identifier is one of its accepted spellings. -/
theorem spells_of_parse? (read : parse? text = some uuid) : uuid.Spells text := by
  unfold parse? at read
  unfold Spells
  generalize text.toList = characters at read ⊢
  unfold ofCharacters? at read
  split at read
  · rw [ofDigits?_eq_some_iff.1 read]
    exact List.mem_cons_self
  · rw [ofHyphenated?_eq_some_iff.1 read]
    exact List.mem_cons_of_mem _ List.mem_cons_self
  · rename_i size
    split at read
    · rename_i braced
      rw [eq_between braced.1 braced.2 (by omega)]
      simp only [List.map_cons, List.map_append, ofHyphenated?_eq_some_iff.1 read]
      exact List.mem_cons_of_mem _ (List.mem_cons_of_mem _ List.mem_cons_self)
    · exact absurd read (by simp)
  · split at read
    · rename_i marked
      rw [← List.take_append_drop 9 characters, List.map_append, marked,
        ofHyphenated?_eq_some_iff.1 read]
      exact List.mem_cons_of_mem _ (List.mem_cons_of_mem _
        (List.mem_cons_of_mem _ List.mem_cons_self))
    · exact absurd read (by simp)
  · exact absurd read (by simp)

/-- Every accepted spelling of an identifier is read as this identifier. -/
theorem Spells.parse? (spells : uuid.Spells text) : Uuid.parse? text = some uuid := by
  unfold Uuid.parse?
  unfold Spells at spells
  generalize text.toList = characters at spells ⊢
  have length_eq : characters.length = (characters.map Char.toLower).length :=
    (List.length_map _).symm
  have grouped := uuid.length_hyphenate_digits
  simp only [spellings, List.mem_cons, List.not_mem_nil, or_false] at spells
  rcases spells with plain | hyphenated | braced | marked
  · rw [plain, length_digits] at length_eq
    rw [ofCharacters?, length_eq]
    exact ofDigits?_eq_some_iff.2 plain
  · rw [hyphenated, grouped] at length_eq
    rw [ofCharacters?, length_eq]
    exact ofHyphenated?_eq_some_iff.2 hyphenated
  · obtain ⟨_, closing, rfl, before, closed⟩ := List.map_eq_append_iff.1 braced
    obtain ⟨opening, between, rfl, opened, groups⟩ := List.map_eq_cons_iff.1 before
    obtain ⟨last, rfl, lastClosed⟩ := List.map_eq_singleton_iff.1 closed
    obtain rfl := eq_of_toLower_eq opened (by decide)
    obtain rfl := eq_of_toLower_eq lastClosed (by decide)
    have size : ('\x7b' :: between ++ ['\x7d']).length = 38 := by
      rw [length_eq, braced, List.length_append, List.length_cons, grouped]
      rfl
    have closed : ('\x7b' :: between ++ ['\x7d']).getLast? = some '\x7d' := List.getLast?_concat
    rw [ofCharacters?, size]
    refine (if_pos ⟨rfl, closed⟩).trans ?_
    rw [List.cons_append, List.drop_one, List.tail_cons, List.dropLast_concat]
    exact ofHyphenated?_eq_some_iff.2 groups
  · rw [marked, List.length_append, grouped] at length_eq
    have marker : (characters.take 9).map Char.toLower = urnMarker := by
      rw [List.map_take, marked]
      exact List.take_left' rfl
    have groups : (characters.drop 9).map Char.toLower = hyphenate groupSizes uuid.digits := by
      rw [List.map_drop, marked]
      exact List.drop_left' rfl
    rw [ofCharacters?, length_eq]
    exact (if_pos marker).trans (ofHyphenated?_eq_some_iff.2 groups)

/-- Exactly the accepted spellings of an identifier are read as this identifier. -/
theorem parse?_eq_some_iff : parse? text = some uuid ↔ uuid.Spells text :=
  ⟨spells_of_parse?, Spells.parse?⟩

/-- Every accepted spelling is brought into the same form. -/
theorem Spells.canonicalise_eq (spells : uuid.Spells text) : canonicalise text = uuid.toText :=
  canonicalise_eq_toText_iff.2 (parse?_eq_some_iff.2 spells)

theorem ofText_eq_ok_iff :
    ofText text = .ok uuid ↔ parse? text = some uuid := by
  unfold ofText
  cases parse? text <;> simp

/-- A text is normalised to the canonical text of the identifier that it spells. -/
theorem normalise_eq_ok_iff {field canonical : String} :
    normalise field text = .ok canonical ↔
      ∃ uuid, parse? text = some uuid ∧ uuid.toText = canonical := by
  unfold normalise
  cases parse? text <;> simp

theorem Spells.normalise_eq (spells : uuid.Spells text)
    (field : String) : normalise field text = .ok uuid.toText :=
  normalise_eq_ok_iff.2 ⟨uuid, spells.parse?, rfl⟩

/-- Groups have nothing but their characters and hyphens. -/
theorem mem_of_mem_hyphenate {sizes : List Nat} {characters : List Char} {character : Char}
    (member : character ∈ hyphenate sizes characters) :
    character ∈ characters ∨ character = '-' := by
  induction sizes generalizing characters with
  | nil => exact absurd member List.not_mem_nil
  | cons size sizes inductionHypothesis =>
      cases sizes with
      | nil => exact .inl (List.mem_of_mem_take member)
      | cons next sizes =>
          rcases List.mem_append.1 member with here | later
          · exact .inl (List.mem_of_mem_take here)
          · rcases List.mem_cons.1 later with rfl | later
            · exact .inr rfl
            · exact (inductionHypothesis later).imp_left List.mem_of_mem_drop

/-- Every character of the canonical text takes one byte. -/
theorem utf8Size_of_mem_toText {character : Char} (member : character ∈ uuid.toText.toList) :
    character.utf8Size = 1 := by
  rw [toText, String.toList_ofList] at member
  rcases mem_of_mem_hyphenate member with digit | rfl
  · obtain ⟨value, bound, rfl⟩ := Hexadecimal.exists_of_mem_digits digit
    exact Hexadecimal.utf8Size_digit bound
  · rfl

/-- So its bytes are its characters, one for one. -/
theorem key_eq_map (uuid : Uuid) :
    uuid.key = uuid.toText.toList.map fun character => character.val.toUInt8 := by
  have narrow : ∀ character ∈ uuid.toText.toList, character.utf8Size = 1 :=
    fun _ => utf8Size_of_mem_toText
  rw [key, Utf8.encode, List.map_eq_flatMap]
  exact List.flatMap_congr fun character member =>
    String.utf8EncodeChar_eq_singleton (narrow character member)

/-- The canonical text has 36 bytes. -/
theorem utf8ByteSize_toText (uuid : Uuid) : uuid.toText.utf8ByteSize = 36 := by
  have size := congrArg List.length uuid.key_eq_map
  rwa [List.length_map, length_toList_toText, key, Utf8.length_encode] at size

/-- What a spelling in small letters has besides digits stands in the marker, around groups or
between them. -/
theorem mem_of_mem_spellings {spelling : List Char} (accepted : spelling ∈ uuid.spellings)
    {character : Char} (member : character ∈ spelling) :
    character ∈ uuid.digits ∨ character ∈ '-' :: '\x7b' :: '\x7d' :: urnMarker := by
  have grouped (among : character ∈ hyphenate groupSizes uuid.digits) :
      character ∈ uuid.digits ∨ character ∈ '-' :: '\x7b' :: '\x7d' :: urnMarker := by
    refine (mem_of_mem_hyphenate among).imp_right ?_
    rintro rfl
    exact List.mem_cons_self
  simp only [spellings, List.mem_cons, List.not_mem_nil, or_false] at accepted
  rcases accepted with same | same | same | same
  · exact .inl (same ▸ member)
  · exact grouped (same ▸ member)
  · rw [same, List.mem_append, List.mem_cons, List.mem_singleton] at member
    rcases member with (rfl | among) | rfl
    · exact .inr (by simp)
    · exact grouped among
    · exact .inr (by simp)
  · rw [same, List.mem_append] at member
    rcases member with marked | among
    · exact .inr (by simp [marked])
    · exact grouped among

/-- No accepted spelling contains the separator of name keys. -/
theorem separator_not_mem (spelled : isSpelling text = true) : '_' ∉ text.toList := by
  obtain ⟨uuid, read⟩ := Option.isSome_iff_exists.1 spelled
  intro member
  have lowered : '_' ∈ text.toList.map Char.toLower := List.mem_map.2 ⟨'_', member, rfl⟩
  rcases mem_of_mem_spellings (spells_of_parse? read) lowered with digit | other
  · obtain ⟨value, bound, written⟩ := Hexadecimal.exists_of_mem_digits digit
    interval_cases value <;> exact absurd written (by decide)
  · exact absurd other (by decide)

/-- An accepted spelling has 45 characters at most. -/
theorem length_le_of_isSpelling (spelled : isSpelling text = true) : text.toList.length ≤ 45 := by
  obtain ⟨uuid, read⟩ := Option.isSome_iff_exists.1 spelled
  unfold parse? ofCharacters? at read
  split at read <;> first | omega | exact absurd read (by simp)

end Uuid

/-- What stands before the last separator, and what stands after it. -/
theorem eq_of_append_separator {left right leftEnd rightEnd : List Char} {separator : Char}
    (same : left ++ separator :: leftEnd = right ++ separator :: rightEnd)
    (once : separator ∉ leftEnd) (onceToo : separator ∉ rightEnd) :
    left = right ∧ leftEnd = rightEnd := by
  rcases List.append_eq_append_iff.1 same with ⟨middle, rfl, rest⟩ | ⟨middle, rfl, rest⟩
  · cases middle with
    | nil => exact ⟨(List.append_nil _).symm, (List.cons.inj rest).2⟩
    | cons character middle =>
        obtain ⟨rfl, rfl⟩ := List.cons.inj rest
        exact absurd (List.mem_append_right _ List.mem_cons_self) once
  · cases middle with
    | nil => exact ⟨List.append_nil _, (List.cons.inj rest).2.symm⟩
    | cons character middle =>
        obtain ⟨rfl, rfl⟩ := List.cons.inj rest
        exact absurd (List.mem_append_right _ List.mem_cons_self) onceToo

/-- A name and an owner in any accepted spelling can be read off their key. -/
theorem eq_of_nameKey_of_isSpelling {leftName rightName leftOwner rightOwner : String}
    (left : Uuid.isSpelling leftOwner = true) (right : Uuid.isSpelling rightOwner = true)
    (same : nameKey leftName leftOwner = nameKey rightName rightOwner) :
    leftName = rightName ∧ leftOwner = rightOwner := by
  have characters := String.toList_inj.2 (Utf8.encode_injective same)
  have separator : nameSeparator.toList = ['_'] := by decide
  simp only [String.toList_append, separator, List.append_assoc, List.singleton_append]
    at characters
  have parted := eq_of_append_separator characters (Uuid.separator_not_mem left)
    (Uuid.separator_not_mem right)
  exact ⟨String.toList_inj.1 parted.1, String.toList_inj.1 parted.2⟩

end Depot
