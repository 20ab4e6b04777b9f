import Mathlib.Tactic.IntervalCases
import Depot.DataError
import Depot.NameKey
import Depot.Proofs.Text.Utf8

/-!
# Identifiers survive being written

Digits are read back as the number they were written for, so the canonical text of
an identifier and its storage key are read back as the identifier. The canonical
text always has the same number of characters, and that is what makes the keys of
the name region unambiguous.
-/

namespace Depot

namespace Hexadecimal

/-- A written digit has the value it was written for. -/
theorem value?_digit {value : Nat} (bound : value < 16) : value? (digit value) = some value := by
  interval_cases value <;> decide

/-- As many digits are written as asked for. -/
@[simp] theorem length_digits (count number : Nat) : (digits count number).length = count := by
  induction count generalizing number with
  | zero => rfl
  | succ count inductionHypothesis => simp [digits, inductionHypothesis]

/-- More digits are read onto what has been read before them. -/
theorem readFrom_append (high : Nat) (left right : List Char) :
    readFrom high (left ++ right)
      = (readFrom high left).bind fun middle => readFrom middle right := by
  induction left generalizing high with
  | nil => rfl
  | cons character rest inductionHypothesis =>
      simp only [List.cons_append, readFrom]
      split
      · exact inductionHypothesis _
      · rfl

/-- Written digits are read back as the last digits of the number. -/
theorem readFrom_digits (count number high : Nat) :
    readFrom high (digits count number) = some (high * 16 ^ count + number % 16 ^ count) := by
  induction count generalizing number with
  | zero => simp [digits, readFrom, Nat.mod_one]
  | succ count inductionHypothesis =>
      have last : number % 16 < 16 := Nat.mod_lt _ (by decide)
      have split : number % 16 ^ (count + 1) = number / 16 % 16 ^ count * 16 + number % 16 := by
        rw [Nat.pow_succ', Nat.mod_mul, Nat.add_comm, Nat.mul_comm]
      simp only [digits, readFrom_append, inductionHypothesis, Option.bind_some, readFrom,
        value?_digit last]
      rw [split, Nat.pow_succ, Nat.add_mul, Nat.mul_assoc, Nat.add_assoc]

end Hexadecimal

namespace Uuid

/-- Groups are told apart again when they are as long as all characters together. -/
theorem ungroup_hyphenate {sizes : List Nat} (groups : sizes ≠ []) {characters : List Char}
    (total : characters.length = sizes.sum) :
    ungroup sizes (hyphenate sizes characters) = some characters := by
  induction sizes generalizing characters with
  | nil => exact absurd rfl groups
  | cons size sizes inductionHypothesis =>
      rw [List.sum_cons] at total
      cases sizes with
      | nil =>
          have whole : characters.length = size := by simpa using total
          simp [ungroup, hyphenate, whole, List.take_of_length_le]
      | cons next sizes =>
          have enough : (characters.take size).length = size := by
            rw [List.length_take]
            omega
          have rest : (characters.drop size).length = (next :: sizes).sum := by
            rw [List.length_drop]
            omega
          have written : hyphenate (size :: next :: sizes) characters
              = characters.take size ++
                '-' :: hyphenate (next :: sizes) (characters.drop size) := rfl
          have after : (hyphenate (size :: next :: sizes) characters).drop size
              = '-' :: hyphenate (next :: sizes) (characters.drop size) := by
            rw [written, List.drop_left' enough]
          have before : (hyphenate (size :: next :: sizes) characters).take size
              = characters.take size := by
            rw [written, List.take_left' enough]
          simp only [ungroup, after, before, inductionHypothesis (List.cons_ne_nil _ _) rest,
            Option.map_some, List.take_append_drop]

/-- An identifier has 32 digits. -/
@[simp] theorem length_digits (uuid : Uuid) : uuid.digits.length = 32 :=
  Hexadecimal.length_digits 32 _

/-- The digits of an identifier spell it. -/
theorem ofDigits?_digits (uuid : Uuid) : ofDigits? uuid.digits = some uuid := by
  have value : uuid.bits.toNat % 16 ^ 32 = uuid.bits.toNat := Nat.mod_eq_of_lt uuid.bits.isLt
  rw [ofDigits?, if_pos uuid.length_digits, Hexadecimal.read?, digits, Hexadecimal.readFrom_digits,
    Nat.zero_mul, Nat.zero_add, value, Option.map_some, BitVec.ofNat_toNat, BitVec.setWidth_eq]

/-- The canonical text has 36 characters. -/
@[simp] theorem length_toList_toText (uuid : Uuid) : uuid.toText.toList.length = 36 := by
  have sizes := uuid.length_digits
  rw [toText, String.toList_ofList]
  simp only [groupSizes, hyphenate, List.length_append, List.length_cons, List.length_take,
    List.length_drop, sizes]
  decide

/-- The canonical text spells its identifier. -/
@[simp] theorem parse?_toText (uuid : Uuid) : parse? uuid.toText = some uuid := by
  have size := uuid.length_toList_toText
  rw [parse?, ofCharacters?, size]
  simp only [toText, String.toList_ofList, ofHyphenated?,
    @ungroup_hyphenate groupSizes (by decide) _ (uuid.length_digits.trans rfl),
    Option.bind_some, ofDigits?_digits]

/-- Different identifiers have different canonical texts. -/
theorem toText_injective {left right : Uuid} (same : left.toText = right.toText) :
    left = right := by
  have parsed := congrArg parse? same
  rw [parse?_toText, parse?_toText] at parsed
  exact Option.some.inj parsed

@[simp] theorem canonicalise_toText (uuid : Uuid) : canonicalise uuid.toText = uuid.toText := by
  rw [canonicalise, parse?_toText]

/-- The canonical form of an identifier is that of its spellings. -/
theorem canonicalise_eq_toText_iff {text : String} {uuid : Uuid} :
    canonicalise text = uuid.toText ↔ parse? text = some uuid := by
  unfold canonicalise
  cases parsed : parse? text with
  | none =>
      refine ⟨?_, fun absent => absurd absent (by simp)⟩
      rintro rfl
      exact absurd (parsed.symm.trans (parse?_toText uuid)) (by simp)
  | some other =>
      rw [Option.some_inj]
      exact ⟨toText_injective, congrArg toText⟩

@[simp] theorem isSpelling_toText (uuid : Uuid) : isSpelling uuid.toText = true := by
  rw [isSpelling, parse?_toText, Option.isSome_some]

/-- A storage key is read back as its identifier. -/
@[simp] theorem ofKey_key (uuid : Uuid) : ofKey uuid.key = .ok uuid := by
  simp only [ofKey, key, Utf8.decode_encode, ofText, parse?_toText]

/-- Different identifiers have different storage keys. -/
theorem key_injective {left right : Uuid} (same : left.key = right.key) : left = right :=
  toText_injective (Utf8.encode_injective same)

theorem toText_ne_empty (uuid : Uuid) : uuid.toText ≠ "" := by
  intro empty
  have size := congrArg List.length (String.toList_inj.2 empty)
  rw [length_toList_toText] at size
  exact absurd size (by decide)

theorem key_ne_nil (uuid : Uuid) : uuid.key ≠ [] := fun empty =>
  uuid.toText_ne_empty (@Utf8.encode_injective uuid.toText "" empty)

end Uuid

/-- A name and a canonical owner can be read off their key. -/
theorem nameKey_injective {leftName rightName : String} {leftOwner rightOwner : Uuid}
    (same : nameKey leftName leftOwner.toText = nameKey rightName rightOwner.toText) :
    leftName = rightName ∧ leftOwner = rightOwner := by
  have characters := String.toList_inj.2 (Utf8.encode_injective same)
  simp only [String.toList_append] at characters
  have parted := List.append_inj' characters (by simp only [Uuid.length_toList_toText])
  exact ⟨String.toList_inj.1 (List.append_cancel_right parted.1),
    Uuid.toText_injective (String.toList_inj.1 parted.2)⟩

theorem nameKey_ne_nil (name owner : String) : nameKey name owner ≠ [] := by
  have separated : (Utf8.encode nameSeparator).length = 1 := by decide
  intro empty
  have size := congrArg List.length empty
  simp only [nameKey, Utf8.encode_append, List.length_append, separated, List.length_nil] at size
  omega

end Depot
