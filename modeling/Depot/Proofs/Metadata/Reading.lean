import Depot.Proofs.Metadata.Layout

/-!
# Which bytes are records

Bytes are read exactly if a record stands at their front: a count, and as many keys and values,
each of them text with its length before it. What follows is not looked at. Entries may stand in
any order and repeat keys, the last entry of a key counting, so the bag that is read need not have
this record. The record that it has is never longer, and is the one that stays when it is read
and stored again. A count that is too large is found out where the bytes end.
-/

namespace Depot

/-- A word spells a number that fits it. -/
theorem ofLittleEndian_lt (word : Bytes) : ofLittleEndian word < 256 ^ word.length := by
  induction word with
  | nil => simp [ofLittleEndian]
  | cons byte rest inductionHypothesis =>
      have lowest := byte.toNat_lt
      rw [ofLittleEndian, List.length_cons, Nat.pow_succ]
      omega

/-- A word is that of the number that it spells. -/
theorem littleEndian_ofLittleEndian (word : Bytes) :
    littleEndian word.length (ofLittleEndian word) = word := by
  induction word with
  | nil => rfl
  | cons byte rest inductionHypothesis =>
      have lowest := byte.toNat_lt
      have digit : (byte.toNat + 256 * ofLittleEndian rest) % 256 = byte.toNat := by omega
      have higher : (byte.toNat + 256 * ofLittleEndian rest) / 256 = ofLittleEndian rest := by omega
      rw [ofLittleEndian, List.length_cons, littleEndian, digit, higher, inductionHypothesis,
        UInt8.ofNat_toNat]

namespace Metadata

variable {bytes rest : Bytes}

/-! ## What is taken -/

/-- A number is taken exactly where its word stands at the front. -/
theorem takeWord_eq_ok_iff {number : Nat} :
    takeWord bytes = .ok (number, rest) ↔ bytes = encodeWord number ++ rest ∧ number < 2 ^ 64 := by
  constructor
  · intro read
    rw [takeWord] at read
    split at read
    · exact absurd read (by simp)
    · rename_i enough
      obtain ⟨rfl, rfl⟩ := Prod.mk.inj (Except.ok.inj read)
      have size : (bytes.take wordSize).length = wordSize :=
        Nat.le_antisymm (List.length_take_le _ _) (Nat.not_lt.1 enough)
      have spelled := littleEndian_ofLittleEndian (bytes.take wordSize)
      have bound := ofLittleEndian_lt (bytes.take wordSize)
      rw [size] at spelled bound
      rw [encodeWord, spelled]
      exact ⟨(List.take_append_drop _ _).symm, bound⟩
  · rintro ⟨rfl, bound⟩
    exact takeWord_encodeWord bound rest

theorem takeText_eq_ok_iff {text : String} :
    takeText bytes = .ok (text, rest) ↔
      bytes = encodeText text ++ rest ∧ text.utf8ByteSize < 2 ^ 64 := by
  constructor
  · intro read
    rw [takeText] at read
    split at read
    · exact absurd read (by simp)
    · rename_i size behind word
      obtain ⟨rfl, bound⟩ := takeWord_eq_ok_iff.1 word
      dsimp only at read
      split at read
      · exact absurd read (by simp)
      · rename_i enough
        split at read
        · exact absurd read (by simp)
        · rename_i decoded
          obtain ⟨rfl, rfl⟩ := Prod.mk.inj (Except.ok.inj read)
          have written := Utf8.decode_eq_ok_iff.1 decoded
          have exact : (behind.take size).length = size :=
            Nat.le_antisymm (List.length_take_le _ _) (Nat.not_lt.1 enough)
          rw [written] at exact
          refine ⟨?_, by rwa [← Utf8.length_encode, exact]⟩
          rw [encodeText, exact, ← written, List.append_assoc, List.take_append_drop]
  · rintro ⟨rfl, bound⟩
    exact takeText_encodeText bound rest

theorem takeEntry_eq_ok_iff {entry : String × String} :
    takeEntry bytes = .ok (entry, rest) ↔
      bytes = encodeText entry.1 ++ encodeText entry.2 ++ rest ∧
        entry.1.utf8ByteSize < 2 ^ 64 ∧ entry.2.utf8ByteSize < 2 ^ 64 := by
  constructor
  · intro read
    rw [takeEntry] at read
    split at read
    · exact absurd read (by simp)
    · rename_i key
      split at read
      · exact absurd read (by simp)
      · rename_i value
        obtain ⟨rfl, rfl⟩ := Prod.mk.inj (Except.ok.inj read)
        obtain ⟨rfl, keyBound⟩ := takeText_eq_ok_iff.1 key
        obtain ⟨rfl, valueBound⟩ := takeText_eq_ok_iff.1 value
        exact ⟨(List.append_assoc _ _ _).symm, keyBound, valueBound⟩
  · rintro ⟨rfl, keyBound, valueBound⟩
    rw [takeEntry, List.append_assoc, takeText_encodeText keyBound]
    dsimp only
    rw [takeText_encodeText valueBound]

/-- Entries are read exactly where they stand at the front, in the number asked for. -/
theorem takeEntries_eq_ok_iff {count : Nat} {entries : List (String × String)} :
    takeEntries count bytes = .ok entries ↔
      entries.length = count ∧ encodeEntries entries <+: bytes ∧
        ∀ entry ∈ entries, entry.1.utf8ByteSize < 2 ^ 64 ∧ entry.2.utf8ByteSize < 2 ^ 64 := by
  constructor
  · intro read
    induction count generalizing bytes entries with
    | zero =>
        obtain rfl := Except.ok.inj read
        exact ⟨rfl, List.nil_prefix, fun _ member => absurd member List.not_mem_nil⟩
    | succ count inductionHypothesis =>
        rw [takeEntries] at read
        split at read
        · exact absurd read (by simp)
        · rename_i entry behind first
          split at read
          · exact absurd read (by simp)
          · rename_i later
            obtain rfl := Except.ok.inj read
            obtain ⟨rfl, bounds⟩ := takeEntry_eq_ok_iff.1 first
            obtain ⟨size, front, laterBounds⟩ := inductionHypothesis later
            refine ⟨congrArg (· + 1) size, ?_, List.forall_mem_cons.2 ⟨bounds, laterBounds⟩⟩
            exact (List.prefix_append_right_inj _).2 front
  · rintro ⟨rfl, ⟨rest, rfl⟩, bounds⟩
    exact takeEntries_flatMap bounds rest

/-! ## The layout and what is read -/

theorem IsWord.eq_encodeWord {word : Bytes} {number : Nat} (isWord : IsWord word number) :
    word = encodeWord number := by
  have other := isWord_encodeWord number
  refine List.ext_getElem? fun place => ?_
  by_cases within : place < 8
  · rw [isWord.digits place within, other.digits place within]
  · rw [List.getElem?_eq_none (by rw [isWord.size]; omega),
      List.getElem?_eq_none (by rw [other.size]; omega)]

theorem isText_iff {text : String} : IsText bytes text ↔ bytes = encodeText text := by
  constructor
  · rintro ⟨word, isWord, rfl⟩
    rw [encodeText, Utf8.length_encode, isWord.eq_encodeWord]
  · rintro rfl
    exact isText_encodeText text

theorem areEntries_iff {entries : List (String × String)} :
    AreEntries bytes entries ↔ bytes = encodeEntries entries := by
  constructor
  · intro areEntries
    induction areEntries with
    | nil => rfl
    | cons first second _ inductionHypothesis =>
        rw [isText_iff.1 first, isText_iff.1 second, inductionHypothesis]
        rfl
  · rintro rfl
    exact areEntries_encodeEntries entries

theorem isRecord_iff {entries : List (String × String)} :
    IsRecord bytes entries ↔ bytes = encodeWord entries.length ++ encodeEntries entries := by
  constructor
  · rintro ⟨word, body, isWord, areEntries, rfl⟩
    rw [isWord.eq_encodeWord, areEntries_iff.1 areEntries]
  · rintro rfl
    exact ⟨_, _, isWord_encodeWord _, areEntries_encodeEntries entries, rfl⟩

/-- Bytes start with a record of entries all of whose numbers fit their words. Anything may
follow it. -/
structure StartsWith (bytes : Bytes) (entries : List (String × String)) : Prop where
  record : ∃ record, IsRecord record entries ∧ record <+: bytes
  count : entries.length < 2 ^ 64
  texts : ∀ entry ∈ entries, entry.1.utf8ByteSize < 2 ^ 64 ∧ entry.2.utf8ByteSize < 2 ^ 64

theorem startsWith_iff {entries : List (String × String)} :
    StartsWith bytes entries ↔
      ∃ rest, takeWord bytes = .ok (entries.length, rest) ∧
        takeEntries entries.length rest = .ok entries := by
  constructor
  · rintro ⟨⟨record, isRecord, rest, rfl⟩, count, texts⟩
    obtain rfl := isRecord_iff.1 isRecord
    refine ⟨encodeEntries entries ++ rest, ?_, takeEntries_eq_ok_iff.2 ⟨rfl, ?_, texts⟩⟩
    · exact takeWord_eq_ok_iff.2 ⟨List.append_assoc _ _ _, count⟩
    · exact List.prefix_append _ _
  · rintro ⟨rest, word, body⟩
    obtain ⟨rfl, count⟩ := takeWord_eq_ok_iff.1 word
    obtain ⟨_, front, texts⟩ := takeEntries_eq_ok_iff.1 body
    exact ⟨⟨_, isRecord_iff.2 rfl, (List.prefix_append_right_inj _).2 front⟩, count, texts⟩

theorem startsWith_encodeEntries {entries : List (String × String)}
    (count : entries.length < 2 ^ 64)
    (texts : ∀ entry ∈ entries, entry.1.utf8ByteSize < 2 ^ 64 ∧ entry.2.utf8ByteSize < 2 ^ 64)
    (rest : Bytes) :
    StartsWith (encodeWord entries.length ++ (encodeEntries entries ++ rest)) entries := by
  rw [← List.append_assoc]
  exact ⟨⟨_, isRecord_iff.2 rfl, List.prefix_append _ rest⟩, count, texts⟩

/-- Bytes are read if they start with a record, as the bag of its entries. -/
theorem decode_eq_ok_iff {metadata : Metadata} :
    decode bytes = .ok metadata ↔
      ∃ entries, StartsWith bytes entries ∧ metadata = ofEntries entries := by
  simp only [startsWith_iff]
  constructor
  · intro read
    rw [decode] at read
    split at read
    · exact absurd read (by simp)
    · rename_i word
      split at read
      · exact absurd read (by simp)
      · rename_i body
        obtain rfl := (takeEntries_eq_ok_iff.1 body).1
        exact ⟨_, ⟨_, word, body⟩, (Except.ok.inj read).symm⟩
  · rintro ⟨entries, ⟨rest, word, body⟩, rfl⟩
    simp only [decode, word, body]

/-- Whatever is not read is malformed. -/
theorem exists_malformed_of_decode_eq_error {error : DataError}
    (failed : decode bytes = .error error) : ∃ cause, error = .malformed cause := by
  rw [decode] at failed
  split at failed
  · exact ⟨_, (Except.error.inj failed).symm⟩
  · split at failed
    · exact ⟨_, (Except.error.inj failed).symm⟩
    · exact absurd failed (by simp)

/-! ## What the bag of entries holds -/

/-- The last of the entries with a key has the value. -/
def LastValue (entries : List (String × String)) (key value : String) : Prop :=
  ∃ front back, entries = front ++ (key, value) :: back ∧ ∀ entry ∈ back, entry.1 ≠ key

theorem get?_ofEntries (entries : List (String × String)) (key : String) :
    (ofEntries entries).get? key
      = (entries.reverse.find? fun entry => entry.1 = key).map Prod.snd := by
  have built := OrderedMap.get?_foldl_insert_last entries Prod.fst Prod.snd .empty key
  rwa [OrderedMap.get?_empty, Option.or_none] at built

theorem get?_ofEntries_eq_some_iff {entries : List (String × String)} {key value : String} :
    (ofEntries entries).get? key = some value ↔ LastValue entries key value := by
  rw [get?_ofEntries, Option.map_eq_some_iff]
  constructor
  · rintro ⟨⟨held, _⟩, found, rfl⟩
    obtain ⟨same, back, front, split, apart⟩ := List.find?_eq_some_iff_append.1 found
    obtain rfl := of_decide_eq_true same
    refine ⟨front.reverse, back.reverse, ?_, fun entry member => ?_⟩
    · simpa using congrArg List.reverse split
    · simpa using apart entry (List.mem_reverse.1 member)
  · rintro ⟨front, back, rfl, apart⟩
    refine ⟨(key, value), List.find?_eq_some_iff_append.2 ⟨by simp, back.reverse, front.reverse,
      by simp, fun entry member => ?_⟩, rfl⟩
    simpa using apart entry (List.mem_reverse.1 member)

/-- A bag is that of entries if the last entry of a key counts. -/
theorem eq_ofEntries_iff {metadata : Metadata} {entries : List (String × String)} :
    metadata = ofEntries entries ↔
      ∀ key value, metadata.get? key = some value ↔ LastValue entries key value := by
  simp only [← get?_ofEntries_eq_some_iff]
  constructor
  · rintro rfl key value
    rfl
  · intro same
    exact congrArg Metadata.mk (OrderedMap.ext_get? fun key => Option.ext (same key))

/-- The bag does not depend on how entries of different keys are ordered. -/
theorem ofEntries_congr {entries others : List (String × String)}
    (same : ∀ key, (entries.filter fun entry => entry.1 = key)
      = others.filter fun entry => entry.1 = key) :
    ofEntries entries = ofEntries others := by
  refine congrArg Metadata.mk (OrderedMap.ext_get? fun key => ?_)
  show (ofEntries entries).get? key = (ofEntries others).get? key
  rw [get?_ofEntries, get?_ofEntries, ← List.head?_filter, ← List.head?_filter,
    List.filter_reverse, List.filter_reverse, same key]

/-! ## Sizes -/

/-- The number of bytes of an entry in a record. -/
def entrySize (entry : String × String) : Nat :=
  16 + entry.1.utf8ByteSize + entry.2.utf8ByteSize

@[simp] theorem length_encodeText (text : String) :
    (encodeText text).length = 8 + text.utf8ByteSize := by
  rw [encodeText, List.length_append, Utf8.length_encode, encodeWord, length_littleEndian, wordSize]

theorem length_encodeEntries (entries : List (String × String)) :
    (encodeEntries entries).length = (entries.map entrySize).sum := by
  rw [encodeEntries, List.length_flatMap]
  refine congrArg List.sum (List.map_congr_left fun entry _ => ?_)
  rw [List.length_append, length_encodeText, length_encodeText, entrySize]
  omega

theorem length_encode (metadata : Metadata) :
    metadata.encode.length = 8 + (metadata.toList.map entrySize).sum := by
  rw [← length_encodeEntries]
  show (encodeWord _ ++ encodeEntries metadata.toList).length = _
  rw [List.length_append, encodeWord, length_littleEndian, wordSize]

/-- The record of the bag of entries is no longer than that of the entries. -/
theorem length_encode_ofEntries_le (entries : List (String × String)) :
    (ofEntries entries).encode.length ≤ 8 + (encodeEntries entries).length := by
  rw [length_encode, length_encodeEntries]
  exact Nat.add_le_add_left (OrderedMap.sum_ofList_le entrySize entries) 8

/-- Bytes are as long as a record that they start with. -/
theorem StartsWith.length_le {entries : List (String × String)}
    (starts : StartsWith bytes entries) : 8 + (encodeEntries entries).length ≤ bytes.length := by
  obtain ⟨record, isRecord, front⟩ := starts.record
  have size := front.length_le
  rwa [isRecord_iff.1 isRecord, List.length_append, encodeWord, length_littleEndian,
    wordSize] at size

/-- An entry takes sixteen bytes at least. -/
theorem le_length_encodeEntries (entries : List (String × String)) :
    16 * entries.length ≤ (encodeEntries entries).length := by
  induction entries with
  | nil => exact Nat.zero_le _
  | cons entry entries inductionHypothesis =>
      simp only [length_encodeEntries, List.map_cons, List.sum_cons, List.length_cons, entrySize]
        at inductionHypothesis ⊢
      omega

/-- The bag of the entries that bytes start with can be stored. -/
theorem StartsWith.fits {entries : List (String × String)} (starts : StartsWith bytes entries) :
    (ofEntries entries).FitsWords where
  count := Nat.lt_of_le_of_lt (OrderedMap.size_ofList_le entries) starts.count
  texts := by
    rintro ⟨key, value⟩ member
    have found := (OrderedMap.mem_entries_iff _ key value).1 member
    obtain ⟨front, back, rfl, _⟩ := get?_ofEntries_eq_some_iff.1 found
    exact starts.texts (key, value) (List.mem_append_right _ List.mem_cons_self)

/-- Where there are fewer bytes than the entries would take, it does not matter how many entries
are asked for. -/
theorem takeEntries_of_excess {count other : Nat} (short : bytes.length < 16 * count)
    (otherShort : bytes.length < 16 * other) :
    takeEntries count bytes = takeEntries other bytes := by
  induction count generalizing other bytes with
  | zero => exact absurd short (Nat.not_lt_zero _)
  | succ count inductionHypothesis =>
      cases other with
      | zero => exact absurd otherShort (Nat.not_lt_zero _)
      | succ other =>
          rw [takeEntries, takeEntries]
          cases first : takeEntry bytes with
          | error cause => rfl
          | ok taken =>
              obtain ⟨entry, rest⟩ := taken
              obtain ⟨rfl, _⟩ := takeEntry_eq_ok_iff.1 first
              simp only [List.length_append, length_encodeText] at short otherShort
              have later : takeEntries count rest = takeEntries other rest :=
                inductionHypothesis (by omega) (by omega)
              dsimp only
              rw [later]

/-- A number of entries that the bytes after it cannot hold is as good as any other. -/
theorem decode_of_excess {number other : Nat} (bound : number < 2 ^ 64)
    (otherBound : other < 2 ^ 64) (short : rest.length < 16 * number)
    (otherShort : rest.length < 16 * other) :
    decode (encodeWord number ++ rest) = decode (encodeWord other ++ rest) := by
  rw [decode, decode, takeWord_encodeWord bound, takeWord_encodeWord otherBound]
  dsimp only
  rw [takeEntries_of_excess short otherShort]

/-- Bytes are read exactly if they start with a record, whatever follows it. -/
theorem decode_accepts_records (bytes : Bytes) :
    (∀ metadata, decode bytes = .ok metadata ↔
      ∃ entries, StartsWith bytes entries ∧
        ∀ key value, metadata.get? key = some value ↔ LastValue entries key value) ∧
    (∀ error, decode bytes = .error error → (¬ ∃ entries, StartsWith bytes entries) ∧
      ∃ cause, error = .malformed cause) ∧
    (∀ entries, StartsWith bytes entries → 16 * entries.length + 8 ≤ bytes.length) ∧
    (∀ number rest, number < 2 ^ 64 → bytes = encodeWord number ++ rest →
      rest.length < 16 * number →
        decode bytes = decode (encodeWord (rest.length / 16 + 1) ++ rest)) ∧
    (∀ entries other others, StartsWith bytes entries → StartsWith other others →
      (∀ key, (entries.filter fun entry => entry.1 = key)
        = others.filter fun entry => entry.1 = key) → decode bytes = decode other) ∧
    ∀ metadata, decode bytes = .ok metadata → metadata.encode.length ≤ bytes.length ∧
      decode metadata.encode = .ok metadata ∧
      (decode metadata.encode).map encode = .ok metadata.encode := by
  refine ⟨fun metadata => ?_, ?_, ?_, ?_, ?_, ?_⟩
  · simp only [decode_eq_ok_iff, eq_ofEntries_iff]
  · intro error failed
    refine ⟨?_, exists_malformed_of_decode_eq_error failed⟩
    rintro ⟨entries, starts⟩
    have read := decode_eq_ok_iff.2 ⟨entries, starts, rfl⟩
    exact absurd (failed.symm.trans read) (by simp)
  · intro entries starts
    have whole := starts.length_le
    have each := le_length_encodeEntries entries
    omega
  · rintro number rest bound rfl short
    exact decode_of_excess bound (by omega) short (by omega)
  · intro entries other others starts otherStarts same
    rw [decode_eq_ok_iff.2 ⟨entries, starts, rfl⟩, decode_eq_ok_iff.2 ⟨others, otherStarts, rfl⟩,
      ofEntries_congr same]
  · intro metadata read
    obtain ⟨entries, starts, rfl⟩ := decode_eq_ok_iff.1 read
    have again := decode_encode starts.fits
    refine ⟨(length_encode_ofEntries_le entries).trans starts.length_le, again, ?_⟩
    rw [again]
    rfl

/-- A record with a key that is repeated, keys out of order and a byte behind it. It is read as
the bag of the last values, and so is the record in which another key comes first. The bag has a
shorter record. A count that is too large ends as a count of five, and so do bytes that end within
the count. -/
theorem decode_accepts_records_address :
    let entries := [("mail", "a@b"), ("", "größe"), ("mail", "")]
    let others := [("", "größe"), ("mail", "a@b"), ("mail", "")]
    let bytes := encodeWord 3 ++ (encodeEntries entries ++ [255])
    let endless := encodeWord (2 ^ 64 - 1) ++ encodeEntries entries
    let address := ofEntries [("", "größe"), ("mail", "")]
    decode bytes = .ok address ∧ 16 * 3 + 8 ≤ bytes.length ∧
      decode bytes = decode (encodeWord 3 ++ (encodeEntries others ++ [])) ∧
      address.encode.length ≤ bytes.length ∧ decode address.encode = .ok address ∧
      (decode address.encode).map encode = .ok address.encode ∧
      decode endless = decode (encodeWord 5 ++ encodeEntries entries) ∧
      decode [3, 0, 0] = .error (.malformed .truncated) ∧
      ¬ ∃ entries, StartsWith [3, 0, 0] entries := by
  intro entries others bytes endless address
  have own : StartsWith bytes entries :=
    @startsWith_encodeEntries entries (by decide) (by decide +kernel) [255]
  have other : StartsWith (encodeWord 3 ++ (encodeEntries others ++ [])) others :=
    @startsWith_encodeEntries others (by decide) (by decide +kernel) []
  have read : decode bytes = .ok address := by decide +kernel
  have sameOrder : ∀ key, (entries.filter fun entry => entry.1 = key)
      = others.filter fun entry => entry.1 = key := by
    intro key
    by_cases mail : "mail" = key <;> by_cases nameless : "" = key <;>
      simp [entries, others, mail, nameless]
    exact absurd (mail.trans nameless.symm) (by decide)
  have capacity : (encodeEntries entries).length / 16 + 1 = 5 := by decide +kernel
  obtain ⟨_, _, size, _, order, stored⟩ := decode_accepts_records bytes
  obtain ⟨shorter, again, fixed⟩ := stored address read
  obtain ⟨_, _, _, excess, _⟩ := decode_accepts_records endless
  obtain ⟨_, refused, _⟩ := decode_accepts_records [3, 0, 0]
  have ended := excess (2 ^ 64 - 1) (encodeEntries entries) (by decide) rfl (by decide +kernel)
  rw [capacity] at ended
  exact ⟨read, size entries own, order entries _ others own other sameOrder, shorter, again, fixed,
    ended, rfl, (refused _ rfl).1⟩

end Metadata

end Depot
