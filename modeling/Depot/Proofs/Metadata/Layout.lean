import Depot.Proofs.Object

/-!
# The layout of records

A record is a count followed by texts, every text with its length before it, and all numbers
are words of eight bytes. So a record says itself where it ends: read with anything behind it
it gives the same bag, and cut anywhere it is refused. A bag has one record only, however it
came to its values: what was done last to a key is all that its record shows.
-/

namespace Depot

/-- The bytes were found to end before what they should hold. -/
def Malformation.EndsEarly : Malformation → Prop
  | .truncated | .overrun => True
  | .entryNotText _ | .keyNotText _ => False

/-- The bytes of a word are the digits of its number to the base 256, lowest digit first. -/
theorem getElem?_littleEndian {width place : Nat} (number : Nat) (within : place < width) :
    (littleEndian width number)[place]? = some (UInt8.ofNat (number / 256 ^ place)) := by
  induction width generalizing number place with
  | zero => exact absurd within (Nat.not_lt_zero _)
  | succ width inductionHypothesis =>
      cases place with
      | zero =>
          have lowest : UInt8.ofNat (number % 256) = UInt8.ofNat number :=
            UInt8.toNat_inj.1 (by rw [UInt8.toNat_ofNat', UInt8.toNat_ofNat', Nat.mod_mod])
          rw [littleEndian, List.getElem?_cons_zero, lowest, Nat.pow_zero, Nat.div_one]
      | succ place =>
          rw [littleEndian, List.getElem?_cons_succ,
            inductionHypothesis _ (Nat.lt_of_succ_lt_succ within), Nat.div_div_eq_div_mul,
            Nat.pow_succ']

namespace Metadata

/-! ## Layout -/

/-- A word is eight bytes, the digits of its number to the base 256, lowest digit first. -/
structure IsWord (word : Bytes) (number : Nat) : Prop where
  size : word.length = 8
  digits : ∀ place < 8, word[place]? = some (UInt8.ofNat (number / 256 ^ place))

/-- A text is its size as a word and its bytes. -/
def IsText (bytes : Bytes) (text : String) : Prop :=
  ∃ word, IsWord word text.utf8ByteSize ∧ bytes = word ++ Utf8.encode text

/-- Entries are keys and values in turn, all of them texts. -/
inductive AreEntries : Bytes → List (String × String) → Prop
  | nil : AreEntries [] []
  | cons {first second rest : Bytes} {key value : String} {entries : List (String × String)} :
      IsText first key → IsText second value → AreEntries rest entries →
        AreEntries (first ++ second ++ rest) ((key, value) :: entries)

/-- A record is the number of its entries as a word, and the entries. -/
def IsRecord (bytes : Bytes) (entries : List (String × String)) : Prop :=
  ∃ word body, IsWord word entries.length ∧ AreEntries body entries ∧ bytes = word ++ body

theorem isWord_encodeWord (number : Nat) : IsWord (encodeWord number) number :=
  ⟨length_littleEndian _ _, fun _ within => getElem?_littleEndian _ within⟩

theorem isText_encodeText (text : String) : IsText (encodeText text) text := by
  refine ⟨_, isWord_encodeWord _, ?_⟩
  rw [encodeText, Utf8.length_encode]

/-- Entries as they stand in a record. -/
def encodeEntries (entries : List (String × String)) : Bytes :=
  entries.flatMap fun entry => encodeText entry.1 ++ encodeText entry.2

theorem areEntries_encodeEntries (entries : List (String × String)) :
    AreEntries (encodeEntries entries) entries := by
  induction entries with
  | nil => exact .nil
  | cons entry rest inductionHypothesis =>
      exact .cons (isText_encodeText entry.1) (isText_encodeText entry.2) inductionHypothesis

/-- What is stored for a bag is the record of its values in key order. -/
theorem isRecord_encode (metadata : Metadata) : IsRecord metadata.encode metadata.toList :=
  ⟨_, _, isWord_encodeWord metadata.size, areEntries_encodeEntries metadata.toList, rfl⟩

/-! ## Where a record ends -/

/-- What a reading makes of the bytes before `more`, where all bytes are those of a value and
then `rest`. -/
inductive Meets {α : Type} (value : α) (more rest : Bytes) :
    Except Malformation (α × Bytes) → Prop
  | whole (left : Bytes) (split : left ++ more = rest) : Meets value more rest (.ok (value, left))
  | short (cause : Malformation) (early : cause.EndsEarly) : Meets value more rest (.error cause)

variable {front more rest : Bytes}

/-- Bytes that are the front of others and of their rest either end within the former or
reach into the rest. -/
theorem cut_append {first : Bytes} (split : front ++ more = first ++ rest) :
    front.length < first.length ∨ ∃ left, front = first ++ left ∧ left ++ more = rest := by
  rcases List.append_eq_append_iff.1 split with ⟨missing, whole, beyond⟩ | ⟨left, whole, beyond⟩
  · cases missing with
    | nil => exact .inr ⟨[], by rw [whole, List.append_nil, List.append_nil], beyond⟩
    | cons byte missing =>
        left
        rw [whole, List.length_append, List.length_cons]
        omega
  · exact .inr ⟨left, whole, beyond.symm⟩

theorem takeWord_meets {number : Nat} (bound : number < 2 ^ 64)
    (split : front ++ more = encodeWord number ++ rest) :
    Meets number more rest (takeWord front) := by
  rcases cut_append split with short | ⟨left, rfl, reaches⟩
  · have width : (encodeWord number).length = wordSize := length_littleEndian _ _
    rw [width] at short
    have missing : (front.take wordSize).length < wordSize := by
      rw [List.length_take]
      omega
    rw [takeWord, if_pos missing]
    exact .short _ trivial
  · rw [takeWord_encodeWord bound]
    exact .whole left reaches

theorem takeText_meets {text : String} (bound : text.utf8ByteSize < 2 ^ 64)
    (split : front ++ more = encodeText text ++ rest) :
    Meets text more rest (takeText front) := by
  have size : (Utf8.encode text).length < 2 ^ 64 := by rwa [Utf8.length_encode]
  rw [encodeText, List.append_assoc] at split
  have word := takeWord_meets size split
  rw [takeText]
  generalize takeWord front = read at word ⊢
  cases word with
  | short cause early => exact .short cause early
  | whole left reaches =>
      rcases cut_append reaches with short | ⟨behind, rfl, joined⟩
      · have missing : (left.take (Utf8.encode text).length).length < (Utf8.encode text).length := by
          rw [List.length_take]
          omega
        simp only [if_pos missing]
        exact .short _ trivial
      · simp only [List.take_left, List.drop_left, Nat.lt_irrefl, if_false, Utf8.decode_encode]
        exact .whole behind joined

theorem takeEntry_meets {entry : String × String} (keyBound : entry.1.utf8ByteSize < 2 ^ 64)
    (valueBound : entry.2.utf8ByteSize < 2 ^ 64)
    (split : front ++ more = encodeText entry.1 ++ encodeText entry.2 ++ rest) :
    Meets entry more rest (takeEntry front) := by
  rw [List.append_assoc] at split
  have key := takeText_meets keyBound split
  rw [takeEntry]
  generalize takeText front = read at key ⊢
  cases key with
  | short cause early => exact .short cause early
  | whole left reaches =>
      have value := takeText_meets valueBound reaches
      simp only
      generalize takeText left = read at value ⊢
      cases value with
      | short cause early => exact .short cause early
      | whole behind reaches => exact .whole behind reaches

/-- Entries of which bytes are missing are found to end early. -/
theorem takeEntries_of_cut {entries : List (String × String)}
    (bounds : ∀ entry ∈ entries, entry.1.utf8ByteSize < 2 ^ 64 ∧ entry.2.utf8ByteSize < 2 ^ 64)
    (missing : more ≠ []) (split : front ++ more = encodeEntries entries) :
    ∃ cause : Malformation, cause.EndsEarly ∧ takeEntries entries.length front = .error cause := by
  induction entries generalizing front with
  | nil => exact absurd (List.append_eq_nil_iff.1 split).2 missing
  | cons entry entries inductionHypothesis =>
      obtain ⟨⟨keyBound, valueBound⟩, bounds⟩ := List.forall_mem_cons.1 bounds
      have first := takeEntry_meets keyBound valueBound split
      rw [List.length_cons, takeEntries]
      generalize takeEntry front = read at first ⊢
      cases first with
      | short cause early => exact ⟨cause, early, rfl⟩
      | whole left reaches =>
          obtain ⟨cause, early, failed⟩ := inductionHypothesis bounds reaches
          exact ⟨cause, early, by simp only [failed]⟩

/-- A record of which bytes are missing is refused because it ends early. -/
theorem decode_of_cut {metadata : Metadata} (fits : metadata.FitsWords) (missing : more ≠ [])
    (split : front ++ more = metadata.encode) :
    ∃ cause : Malformation, cause.EndsEarly ∧ decode front = .error (.malformed cause) := by
  have count : Meets metadata.toList.length more (encodeEntries metadata.toList) (takeWord front) :=
    takeWord_meets fits.count split
  rw [decode]
  generalize takeWord front = read at count ⊢
  cases count with
  | short cause early => exact ⟨cause, early, rfl⟩
  | whole left reaches =>
      obtain ⟨cause, early, failed⟩ := takeEntries_of_cut fits.texts missing reaches
      exact ⟨cause, early, by simp only [failed]⟩

/-- Bags whose records are the same have the same values, and the other way round. -/
theorem encode_eq_iff {metadata other : Metadata} (fits : metadata.FitsWords)
    (otherFits : other.FitsWords) :
    metadata.encode = other.encode ↔ ∀ key, metadata.get? key = other.get? key := by
  constructor
  · intro same key
    have read := decode_encode fits
    rw [same, decode_encode otherFits] at read
    rw [Except.ok.inj read]
  · intro same
    have values : metadata.values = other.values := OrderedMap.ext_get? same
    rw [show metadata = other from congrArg Metadata.mk values]

/-! ## How a bag came to its values -/

/-- What may be done to a bag. -/
inductive Edit where
  | assign (key value : String)
  | set (key value : String)
  | remove (key : String)

/-- The bag after an edit. -/
def perform (metadata : Metadata) : Edit → Metadata
  | .assign key value => metadata.assign key value
  | .set key value => metadata.set key value
  | .remove key => metadata.remove key

/-- The bag that edits build from nothing. -/
def edited (edits : List Edit) : Metadata := edits.foldl perform empty

/-- What an edit makes of a key, unless it leaves the key as it is. -/
def Edit.outcome? (sought : String) : Edit → Option (Option String)
  | .assign key value => if sought = key then some (some value) else none
  | .set key value =>
    if sought = key ∧ isProtected key = false then some (some value) else none
  | .remove key => if sought = key ∧ isProtected key = false then some none else none

/-- What edits leave of a key: what the last one made of it that did not leave it as it was. -/
def settled (edits : List Edit) (key : String) : Option String :=
  (edits.reverse.findSome? (Edit.outcome? key)).getD none

theorem get?_perform (metadata : Metadata) (edit : Edit) (sought : String) :
    (metadata.perform edit).get? sought = (edit.outcome? sought).getD (metadata.get? sought) := by
  cases edit with
  | assign key value =>
      rw [perform, get?_assign, Edit.outcome?]
      split <;> rfl
  | set key value =>
      rw [perform, get?_set, Edit.outcome?]
      split <;> rfl
  | remove key =>
      rw [perform, get?_remove, Edit.outcome?]
      split <;> rfl

theorem get?_foldl_perform (edits : List Edit) (metadata : Metadata) (sought : String) :
    (edits.foldl perform metadata).get? sought
      = (edits.reverse.findSome? (Edit.outcome? sought)).getD (metadata.get? sought) := by
  induction edits generalizing metadata with
  | nil => rfl
  | cons edit rest inductionHypothesis =>
      rw [List.foldl_cons, inductionHypothesis, get?_perform, List.reverse_cons,
        List.findSome?_append]
      cases rest.reverse.findSome? (Edit.outcome? sought) with
      | some later => rfl
      | none => cases made : edit.outcome? sought <;> simp [made]

/-- A bag has the values that its edits leave. -/
theorem get?_edited (edits : List Edit) (key : String) :
    (edited edits).get? key = settled edits key :=
  get?_foldl_perform edits empty key

/-- Values that are set one after the other are the bag of these values. -/
theorem edited_map_assign (entries : List (String × String)) :
    edited (entries.map fun entry => .assign entry.1 entry.2) = ofEntries entries := by
  rw [edited, List.foldl_map]
  exact List.foldl_hom Metadata.mk fun _ _ => rfl

/-- Every bag can be built. -/
theorem exists_edited_eq (metadata : Metadata) : ∃ edits, edited edits = metadata := by
  refine ⟨metadata.toList.map fun entry => .assign entry.1 entry.2, ?_⟩
  rw [edited_map_assign]
  exact congrArg Metadata.mk (OrderedMap.ofList_entries metadata.values)

/-- The record of a bag is laid out as words and texts. It gives the bag back whatever is behind
it, it is refused as soon as bytes are missing at its end, and no other bag has it: the records
of two bags are the same exactly if the last edits of every key made the same of it, in whatever
order the two were built. -/
theorem encode_canonical (metadata : Metadata) (fits : metadata.FitsWords) :
    IsRecord metadata.encode metadata.toList ∧
    (∀ rest, decode (metadata.encode ++ rest) = .ok metadata) ∧
    (∀ front, front <+: metadata.encode → front ≠ metadata.encode →
      ∃ cause : Malformation, cause.EndsEarly ∧ decode front = .error (.malformed cause)) ∧
    (∀ other : Metadata, other.FitsWords →
      (metadata.encode = other.encode ↔ ∀ key, metadata.get? key = other.get? key)) ∧
    (∃ edits, edited edits = metadata) ∧
    ∀ edits otherEdits, edited edits = metadata → (edited otherEdits).FitsWords →
      (metadata.encode = (edited otherEdits).encode ↔
        ∀ key, settled edits key = settled otherEdits key) := by
  refine ⟨isRecord_encode metadata, decode_encode_append fits, ?_,
    fun other otherFits => encode_eq_iff fits otherFits, exists_edited_eq metadata, ?_⟩
  · rintro front ⟨more, split⟩ cut
    refine decode_of_cut fits ?_ split
    rintro rfl
    exact cut (by simpa using split)
  · rintro edits otherEdits rfl otherFits
    simp only [encode_eq_iff fits otherFits, get?_edited]

/-- A bag with an empty key, an empty value and texts of more bytes than characters. Its record
is refused without the last byte. It is also the record of the bag to which the same was done in
another order, with attempts on protected keys between, so the edits agree on all keys. -/
theorem encode_canonical_greeting :
    let edits := [.set "" "größe", .assign "id" "7", .set "tag" ""]
    let otherEdits := [.remove "", .set "tag" "a", .assign "id" "7", .set "id" "8", .set "tag" "",
      .remove "id", .set "" "größe"]
    let greeting := edited edits
    IsRecord greeting.encode [("", "größe"), ("id", "7"), ("tag", "")] ∧
    decode (greeting.encode ++ [255, 0]) = .ok greeting ∧ greeting.encode.length = 69 ∧
    (∃ cause : Malformation, cause.EndsEarly ∧
      decode (greeting.encode.take 68) = .error (.malformed cause)) ∧
    greeting.encode = (edited otherEdits).encode ∧
    ∀ key, settled edits key = settled otherEdits key := by
  intro edits otherEdits greeting
  have fits : greeting.FitsWords := ⟨by decide +kernel, by decide +kernel⟩
  have otherFits : (edited otherEdits).FitsWords := ⟨by decide +kernel, by decide +kernel⟩
  have same : greeting.encode = (edited otherEdits).encode := by decide +kernel
  obtain ⟨record, whole, cut, _, _, order⟩ := encode_canonical greeting fits
  exact ⟨record, whole _, by decide +kernel, cut _ (List.take_prefix _ _) (by decide +kernel), same,
    (order edits otherEdits rfl otherFits).1 same⟩

end Metadata

end Depot
