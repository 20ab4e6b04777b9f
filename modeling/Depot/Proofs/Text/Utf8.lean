import Depot.Text.Utf8

/-!
# Text survives being written as bytes

The reader classifies the written form of a character as that character, whatever
follows it, and nothing else as a character. Hence reading gives back every text that
was written, different texts are written differently, and bytes are read as a text
exactly if they are its written form. Where other bytes stop being text is not settled
here.
-/

namespace Depot.Utf8

private theorem within_of_toNat {byte low high : UInt8} (above : low.toNat ≤ byte.toNat)
    (below : byte.toNat ≤ high.toNat) : (low ≤ byte && byte ≤ high) = true := by
  simp only [Bool.and_eq_true, decide_eq_true_eq, UInt8.le_iff_toNat_le]
  exact ⟨above, below⟩

/-- A byte of six payload bits above the marker continues a sequence. -/
theorem isContinuation_of_toNat {byte : UInt8} {low : Nat} (value : byte.toNat = low + 0x80)
    (bound : low < 64) : isContinuation byte = true := by
  apply within_of_toNat
  · show 0x80 ≤ byte.toNat
    omega
  · show byte.toNat ≤ 0xBF
    omega

/-- The payload of a byte is what it holds above its marker. -/
theorem bitsAbove_of_toNat {byte : UInt8} {base low : Nat} (value : byte.toNat = low + base) :
    bitsAbove base byte = low := by
  rw [bitsAbove, value, Nat.add_sub_cancel]

theorem headOfTwo_of_toNat {first second : UInt8} {high low : Nat} (rest : Bytes)
    (firstValue : first.toNat = high + 0xC0) (secondValue : second.toNat = low + 0x80)
    (lowBound : low < 64) :
    headOfTwo first (second :: rest) = .character (Char.ofNat (high * 64 + low)) 1 := by
  simp only [headOfTwo, isContinuation_of_toNat secondValue lowBound, if_true,
    bitsAbove_of_toNat firstValue, bitsAbove_of_toNat secondValue]

/-- The second of three bytes is accepted unless the sequence is overlong or a
surrogate. -/
theorem mayFollowThree_of_toNat {first second : UInt8} {high middle : Nat}
    (firstValue : first.toNat = high + 0xE0) (secondValue : second.toNat = middle + 0x80)
    (middleBound : middle < 64) (notOverlong : 0x20 ≤ high * 64 + middle)
    (noSurrogate : high * 64 + middle < 0x360 ∨ 0x380 ≤ high * 64 + middle) :
    mayFollowThree first second = true := by
  unfold mayFollowThree
  split
  · rename_i lead
    have leadValue : first.toNat = 0xE0 := congrArg UInt8.toNat lead
    apply within_of_toNat
    · show 0xA0 ≤ second.toNat
      omega
    · show second.toNat ≤ 0xBF
      omega
  · split
    · rename_i lead
      have leadValue : first.toNat = 0xED := congrArg UInt8.toNat lead
      apply within_of_toNat
      · show 0x80 ≤ second.toNat
        omega
      · show second.toNat ≤ 0x9F
        omega
    · exact isContinuation_of_toNat secondValue middleBound

theorem headOfThree_of_toNat {first second third : UInt8} {high middle low : Nat} (rest : Bytes)
    (firstValue : first.toNat = high + 0xE0) (secondValue : second.toNat = middle + 0x80)
    (thirdValue : third.toNat = low + 0x80) (middleBound : middle < 64) (lowBound : low < 64)
    (notOverlong : 0x20 ≤ high * 64 + middle)
    (noSurrogate : high * 64 + middle < 0x360 ∨ 0x380 ≤ high * 64 + middle) :
    headOfThree first (second :: third :: rest)
      = .character (Char.ofNat (high * 4096 + middle * 64 + low)) 2 := by
  have follows := mayFollowThree_of_toNat firstValue secondValue middleBound notOverlong noSurrogate
  simp only [headOfThree, follows, isContinuation_of_toNat thirdValue lowBound, if_true,
    bitsAbove_of_toNat firstValue, bitsAbove_of_toNat secondValue, bitsAbove_of_toNat thirdValue]

/-- The second of four bytes is accepted unless the sequence is overlong or above
the last code point. -/
theorem mayFollowFour_of_toNat {first second : UInt8} {high middle : Nat}
    (firstValue : first.toNat = high + 0xF0) (secondValue : second.toNat = middle + 0x80)
    (middleBound : middle < 64) (notOverlong : 0x10 ≤ high * 64 + middle)
    (inRange : high * 64 + middle < 0x110) : mayFollowFour first second = true := by
  unfold mayFollowFour
  split
  · rename_i lead
    have leadValue : first.toNat = 0xF0 := congrArg UInt8.toNat lead
    apply within_of_toNat
    · show 0x90 ≤ second.toNat
      omega
    · show second.toNat ≤ 0xBF
      omega
  · split
    · rename_i lead
      have leadValue : first.toNat = 0xF4 := congrArg UInt8.toNat lead
      apply within_of_toNat
      · show 0x80 ≤ second.toNat
        omega
      · show second.toNat ≤ 0x8F
        omega
    · exact isContinuation_of_toNat secondValue middleBound

theorem headOfFour_of_toNat {first second third fourth : UInt8} {high upper middle low : Nat}
    (rest : Bytes) (firstValue : first.toNat = high + 0xF0)
    (secondValue : second.toNat = upper + 0x80) (thirdValue : third.toNat = middle + 0x80)
    (fourthValue : fourth.toNat = low + 0x80) (upperBound : upper < 64) (middleBound : middle < 64)
    (lowBound : low < 64) (notOverlong : 0x10 ≤ high * 64 + upper)
    (inRange : high * 64 + upper < 0x110) :
    headOfFour first (second :: third :: fourth :: rest)
      = .character (Char.ofNat (high * 262144 + upper * 4096 + middle * 64 + low)) 3 := by
  have follows := mayFollowFour_of_toNat firstValue secondValue upperBound notOverlong inRange
  simp only [headOfFour, follows, isContinuation_of_toNat thirdValue middleBound,
    isContinuation_of_toNat fourthValue lowBound, if_true, bitsAbove_of_toNat firstValue,
    bitsAbove_of_toNat secondValue, bitsAbove_of_toNat thirdValue, bitsAbove_of_toNat fourthValue]

/-- The classification of a front by the value of its first byte. -/
theorem head_eq (first : UInt8) (rest : Bytes) :
    head first rest =
      if first.toNat < 0x80 then .character (Char.ofNat first.toNat) 0
      else if first.toNat < 0xC2 then .broken 0
      else if first.toNat < 0xE0 then headOfTwo first rest
      else if first.toNat < 0xF0 then headOfThree first rest
      else if first.toNat < 0xF5 then headOfFour first rest
      else .broken 0 := by
  simp only [head, UInt8.lt_iff_toNat_lt]
  rfl

private theorem toNat_marked {value marker : Nat} (bound : value + marker < 256) :
    (UInt8.ofNat (value + marker)).toNat = value + marker :=
  UInt8.toNat_ofNat_of_lt' bound

/-- The written form of a character is classified as that character, whatever
follows. -/
theorem head_encodeChar (character : Char) (rest : Bytes) :
    ∃ first tail, String.utf8EncodeChar character = first :: tail ∧
      head first (tail ++ rest) = .character character tail.length := by
  have range := character.valid
  simp only [UInt32.isValidChar, Nat.isValidChar] at range
  have same : Char.ofNat character.val.toNat = character := Char.ofNat_toNat character
  generalize value : character.val.toNat = number at range same
  have low : (UInt8.ofNat (number % 64 + 0x80)).toNat = number % 64 + 0x80 :=
    toNat_marked (by omega)
  have middle : (UInt8.ofNat (number / 64 % 64 + 0x80)).toNat = number / 64 % 64 + 0x80 :=
    toNat_marked (by omega)
  simp only [String.utf8EncodeChar, value]
  -- the same four ranges by which the number of bytes is chosen
  split
  · refine ⟨_, _, rfl, ?_⟩
    have lead : (UInt8.ofNat number).toNat = number := @toNat_marked number 0 (by omega)
    rw [head_eq, lead, if_pos (by omega), same]
    rfl
  · split
    · refine ⟨_, _, rfl, ?_⟩
      have lead : (UInt8.ofNat (number / 64 % 32 + 0xC0)).toNat = number / 64 + 0xC0 := by
        rw [toNat_marked (by omega)]
        omega
      rw [head_eq, lead, if_neg (by omega), if_neg (by omega), if_pos (by omega), List.cons_append,
        headOfTwo_of_toNat _ lead low (by omega),
        show number / 64 * 64 + number % 64 = number by omega, same]
      rfl
    · split
      · refine ⟨_, _, rfl, ?_⟩
        have lead : (UInt8.ofNat (number / 4096 % 16 + 0xE0)).toNat = number / 4096 + 0xE0 := by
          rw [toNat_marked (by omega)]
          omega
        rw [head_eq, lead, if_neg (by omega), if_neg (by omega), if_neg (by omega),
          if_pos (by omega), List.cons_append, List.cons_append,
          headOfThree_of_toNat _ lead middle low (by omega) (by omega) (by omega) (by omega),
          show number / 4096 * 4096 + number / 64 % 64 * 64 + number % 64 = number by omega, same]
        rfl
      · refine ⟨_, _, rfl, ?_⟩
        have lead : (UInt8.ofNat (number / 262144 % 8 + 0xF0)).toNat = number / 262144 + 0xF0 := by
          rw [toNat_marked (by omega)]
          omega
        have upper : (UInt8.ofNat (number / 4096 % 64 + 0x80)).toNat = number / 4096 % 64 + 0x80 :=
          toNat_marked (by omega)
        rw [head_eq, lead, if_neg (by omega), if_neg (by omega), if_neg (by omega),
          if_neg (by omega), if_pos (by omega), List.cons_append, List.cons_append,
          List.cons_append,
          headOfFour_of_toNat _ lead upper middle low (by omega) (by omega) (by omega) (by omega)
            (by omega),
          show number / 262144 * 262144 + number / 4096 % 64 * 4096 + number / 64 % 64 * 64
            + number % 64 = number by omega, same]
        rfl

/-- Reading written characters gives them back. -/
theorem decodeFrom_flatMap (position : Nat) (characters : List Char) :
    decodeFrom position (characters.flatMap String.utf8EncodeChar) = .ok characters := by
  induction characters generalizing position with
  | nil =>
      rw [List.flatMap_nil, decodeFrom]
  | cons character rest inductionHypothesis =>
      obtain ⟨first, tail, written, classified⟩ :=
        head_encodeChar character (rest.flatMap String.utf8EncodeChar)
      rw [List.flatMap_cons, written, List.cons_append, decodeFrom, classified]
      simp only [List.drop_left, inductionHypothesis]

/-- Reading a written text gives it back. -/
@[simp] theorem decode_encode (text : String) : decode (encode text) = .ok text := by
  simp only [decode, encode, decodeFrom_flatMap, Except.map, String.ofList_toList]

/-- The forgiving reader gives written characters back, too. -/
theorem lossyCharacters_flatMap (characters : List Char) :
    lossyCharacters (characters.flatMap String.utf8EncodeChar) = characters := by
  induction characters with
  | nil =>
      rw [List.flatMap_nil, lossyCharacters]
  | cons character rest inductionHypothesis =>
      obtain ⟨first, tail, written, classified⟩ :=
        head_encodeChar character (rest.flatMap String.utf8EncodeChar)
      rw [List.flatMap_cons, written, List.cons_append, lossyCharacters, classified]
      simp only [List.drop_left, inductionHypothesis]

@[simp] theorem decodeLossy_encode (text : String) : decodeLossy (encode text) = text := by
  rw [decodeLossy, encode, lossyCharacters_flatMap, String.ofList_toList]

/-- Different texts are written differently. -/
theorem encode_injective {left right : String} (same : encode left = encode right) :
    left = right := by
  have read := congrArg decode same
  rw [decode_encode, decode_encode] at read
  exact Except.ok.inj read

@[simp] theorem encode_append (left right : String) :
    encode (left ++ right) = encode left ++ encode right := by
  simp only [encode, String.toList_append, List.flatMap_append]

/-- The size of a text is the number of its bytes. -/
@[simp] theorem length_encode (text : String) : (encode text).length = text.utf8ByteSize := by
  have written : text.toByteArray = (encode text).toByteArray :=
    congrArg String.toByteArray (String.ofList_toList (s := text)).symm
  rw [← String.size_toByteArray, written, List.size_toByteArray]

/-! ## What is read as text -/

/-- A byte between two bounds is a number between them. -/
private theorem toNat_of_within {byte low high : UInt8}
    (within : (low ≤ byte && byte ≤ high) = true) :
    low.toNat ≤ byte.toNat ∧ byte.toNat ≤ high.toNat := by
  simpa only [Bool.and_eq_true, decide_eq_true_eq, UInt8.le_iff_toNat_le] using within

theorem toNat_of_isContinuation {byte : UInt8} (continues : isContinuation byte = true) :
    0x80 ≤ byte.toNat ∧ byte.toNat ≤ 0xBF :=
  toNat_of_within continues

/-- The second of three bytes continues the sequence, and the two are neither those of an
overlong form nor those of a surrogate. -/
theorem toNat_of_mayFollowThree {first second : UInt8}
    (follows : mayFollowThree first second = true) :
    0x80 ≤ second.toNat ∧ second.toNat ≤ 0xBF ∧ (first.toNat = 0xE0 → 0xA0 ≤ second.toNat) ∧
      (first.toNat = 0xED → second.toNat ≤ 0x9F) := by
  unfold mayFollowThree at follows
  split at follows
  · rename_i lead
    have leadValue : first.toNat = 0xE0 := congrArg UInt8.toNat lead
    obtain ⟨above, below⟩ : 0xA0 ≤ second.toNat ∧ second.toNat ≤ 0xBF := toNat_of_within follows
    omega
  · rename_i noFirst
    have leadValue : first.toNat ≠ 0xE0 := fun same => noFirst (UInt8.toNat_inj.1 same)
    split at follows
    · rename_i lead
      have leadValue : first.toNat = 0xED := congrArg UInt8.toNat lead
      obtain ⟨above, below⟩ : 0x80 ≤ second.toNat ∧ second.toNat ≤ 0x9F := toNat_of_within follows
      omega
    · rename_i noOther
      have otherValue : first.toNat ≠ 0xED := fun same => noOther (UInt8.toNat_inj.1 same)
      have continued := toNat_of_isContinuation follows
      omega

theorem toNat_of_mayFollowFour {first second : UInt8}
    (follows : mayFollowFour first second = true) :
    0x80 ≤ second.toNat ∧ second.toNat ≤ 0xBF ∧ (first.toNat = 0xF0 → 0x90 ≤ second.toNat) ∧
      (first.toNat = 0xF4 → second.toNat ≤ 0x8F) := by
  unfold mayFollowFour at follows
  split at follows
  · rename_i lead
    have leadValue : first.toNat = 0xF0 := congrArg UInt8.toNat lead
    obtain ⟨above, below⟩ : 0x90 ≤ second.toNat ∧ second.toNat ≤ 0xBF := toNat_of_within follows
    omega
  · rename_i noFirst
    have leadValue : first.toNat ≠ 0xF0 := fun same => noFirst (UInt8.toNat_inj.1 same)
    split at follows
    · rename_i lead
      have leadValue : first.toNat = 0xF4 := congrArg UInt8.toNat lead
      obtain ⟨above, below⟩ : 0x80 ≤ second.toNat ∧ second.toNat ≤ 0x8F := toNat_of_within follows
      omega
    · rename_i noOther
      have otherValue : first.toNat ≠ 0xF4 := fun same => noOther (UInt8.toNat_inj.1 same)
      have continued := toNat_of_isContinuation follows
      omega

/-- A code point is that of its character. -/
theorem toNat_val_ofNat {number : Nat} (valid : number.isValidChar) :
    (Char.ofNat number).val.toNat = number := by
  rw [Char.ofNat, dif_pos valid]
  rfl

private theorem ofNat_eq {number : Nat} (byte : UInt8) (value : number = byte.toNat) :
    UInt8.ofNat number = byte := by
  rw [value, UInt8.ofNat_toNat]

/-- What is classified as a character of two bytes is its written form. -/
theorem eq_encodeChar_of_headOfTwo {first : UInt8} {rest : Bytes} {value : Char}
    {continuation : Nat} (above : 0xC2 ≤ first.toNat) (below : first.toNat < 0xE0)
    (classified : headOfTwo first rest = .character value continuation) :
    first :: rest = String.utf8EncodeChar value ++ rest.drop continuation := by
  unfold headOfTwo at classified
  split at classified
  · exact absurd classified (by simp)
  · rename_i second tail
    split at classified
    · obtain ⟨secondAbove, secondBelow⟩ := toNat_of_isContinuation ‹_›
      obtain ⟨rfl, rfl⟩ := Head.character.inj classified
      unfold bitsAbove
      rw [String.utf8EncodeChar, toNat_val_ofNat (by simp only [Nat.isValidChar]; omega)]
      rw [if_neg (by omega), if_pos (by omega), ofNat_eq first (by omega),
        ofNat_eq second (by omega)]
      rfl
    · exact absurd classified (by simp)

theorem eq_encodeChar_of_headOfThree {first : UInt8} {rest : Bytes} {value : Char}
    {continuation : Nat} (above : 0xE0 ≤ first.toNat) (below : first.toNat < 0xF0)
    (classified : headOfThree first rest = .character value continuation) :
    first :: rest = String.utf8EncodeChar value ++ rest.drop continuation := by
  unfold headOfThree at classified
  split at classified
  · exact absurd classified (by simp)
  · rename_i second tail
    split at classified
    · obtain ⟨secondAbove, secondBelow, notOverlong, noSurrogate⟩ := toNat_of_mayFollowThree ‹_›
      split at classified
      · exact absurd classified (by simp)
      · rename_i third tail
        split at classified
        · obtain ⟨thirdAbove, thirdBelow⟩ := toNat_of_isContinuation ‹_›
          obtain ⟨rfl, rfl⟩ := Head.character.inj classified
          unfold bitsAbove
          rw [String.utf8EncodeChar, toNat_val_ofNat (by simp only [Nat.isValidChar]; omega)]
          rw [if_neg (by omega), if_neg (by omega), if_pos (by omega),
            ofNat_eq first (by omega), ofNat_eq second (by omega),
            ofNat_eq third (by omega)]
          rfl
        · exact absurd classified (by simp)
    · exact absurd classified (by simp)

theorem eq_encodeChar_of_headOfFour {first : UInt8} {rest : Bytes} {value : Char}
    {continuation : Nat} (above : 0xF0 ≤ first.toNat) (below : first.toNat < 0xF5)
    (classified : headOfFour first rest = .character value continuation) :
    first :: rest = String.utf8EncodeChar value ++ rest.drop continuation := by
  unfold headOfFour at classified
  split at classified
  · exact absurd classified (by simp)
  · rename_i second tail
    split at classified
    · obtain ⟨secondAbove, secondBelow, notOverlong, inRange⟩ := toNat_of_mayFollowFour ‹_›
      split at classified
      · exact absurd classified (by simp)
      · rename_i third tail
        split at classified
        · obtain ⟨thirdAbove, thirdBelow⟩ := toNat_of_isContinuation ‹_›
          split at classified
          · exact absurd classified (by simp)
          · rename_i fourth tail
            split at classified
            · obtain ⟨fourthAbove, fourthBelow⟩ := toNat_of_isContinuation ‹_›
              obtain ⟨rfl, rfl⟩ := Head.character.inj classified
              unfold bitsAbove
              rw [String.utf8EncodeChar, toNat_val_ofNat (by simp only [Nat.isValidChar]; omega)]
              rw [if_neg (by omega), if_neg (by omega), if_neg (by omega),
                ofNat_eq first (by omega), ofNat_eq second (by omega),
                ofNat_eq third (by omega), ofNat_eq fourth (by omega)]
              rfl
            · exact absurd classified (by simp)
        · exact absurd classified (by simp)
    · exact absurd classified (by simp)

/-- A front that is classified as a character is the written form of this character. -/
theorem eq_encodeChar_of_head {first : UInt8} {rest : Bytes} {value : Char} {continuation : Nat}
    (classified : head first rest = .character value continuation) :
    first :: rest = String.utf8EncodeChar value ++ rest.drop continuation := by
  rw [head_eq] at classified
  split at classified
  · obtain ⟨rfl, rfl⟩ := Head.character.inj classified
    rw [String.utf8EncodeChar, toNat_val_ofNat (by simp only [Nat.isValidChar]; omega)]
    rw [if_pos (by omega), ofNat_eq first rfl]
    rfl
  split at classified
  · exact absurd classified (by simp)
  split at classified
  · exact eq_encodeChar_of_headOfTwo (by omega) (by omega) classified
  split at classified
  · exact eq_encodeChar_of_headOfThree (by omega) (by omega) classified
  split at classified
  · exact eq_encodeChar_of_headOfFour (by omega) (by omega) classified
  · exact absurd classified (by simp)

/-- What is read as characters is their written forms. -/
theorem eq_flatMap_of_decodeFrom {position : Nat} {bytes : Bytes} {characters : List Char}
    (read : decodeFrom position bytes = .ok characters) :
    bytes = characters.flatMap String.utf8EncodeChar := by
  fun_induction decodeFrom position bytes generalizing characters with
  | case1 position =>
      obtain rfl := Except.ok.inj read
      rfl
  | case2 position first rest value continuation classified values later inductionHypothesis =>
      obtain rfl := Except.ok.inj read
      rw [List.flatMap_cons, ← inductionHypothesis later]
      exact eq_encodeChar_of_head classified
  | _ => exact absurd read (by simp)

/-- Bytes are read as a text exactly if they are its written form. -/
theorem decode_eq_ok_iff {bytes : Bytes} {text : String} :
    decode bytes = .ok text ↔ bytes = encode text := by
  constructor
  · intro read
    unfold decode at read
    cases characters : decodeFrom 0 bytes with
    | error fault => simp [characters, Except.map] at read
    | ok values =>
        rw [characters] at read
        obtain rfl := Except.ok.inj read
        rw [encode, String.toList_ofList]
        exact eq_flatMap_of_decodeFrom characters
  · rintro rfl
    exact decode_encode text

end Depot.Utf8
