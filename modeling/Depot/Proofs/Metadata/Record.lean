import Mathlib.Algebra.Group.Nat.Defs
import Depot.Metadata.Record
import Depot.Proofs.OrderedMap
import Depot.Proofs.Text.Utf8

/-!
# Records survive being written

A bag is read back from its record, whatever bytes follow. The only condition is
that the numbers in the record fit their words, which they do for every bag that
fits into memory. What is read from other bytes is another matter.
-/

namespace Depot

@[simp] theorem length_littleEndian (width number : Nat) :
    (littleEndian width number).length = width := by
  induction width generalizing number with
  | zero => rfl
  | succ width inductionHypothesis => simp [littleEndian, inductionHypothesis]

/-- A number below the range of a word is read back from it. -/
theorem ofLittleEndian_littleEndian {width number : Nat} (bound : number < 256 ^ width) :
    ofLittleEndian (littleEndian width number) = number := by
  induction width generalizing number with
  | zero =>
      rw [Nat.pow_zero] at bound
      simp only [littleEndian, ofLittleEndian]
      omega
  | succ width inductionHypothesis =>
      have higher : number / 256 < 256 ^ width := by
        rw [Nat.pow_succ'] at bound
        exact Nat.div_lt_of_lt_mul bound
      have lowest : (UInt8.ofNat (number % 256)).toNat = number % 256 :=
        UInt8.toNat_ofNat_of_lt' (Nat.mod_lt _ (by decide))
      simp only [littleEndian, ofLittleEndian, inductionHypothesis higher, lowest]
      omega

namespace Metadata

/-- A bag has the keys that have a value. -/
theorem has_iff {metadata : Metadata} {key : String} :
    metadata.has key = true ↔ ∃ value, metadata.get? key = some value := by
  rw [has, OrderedMap.contains_eq_isSome, Option.isSome_iff_exists]
  rfl

/-- The numbers in the record of a bag fit their words, as do those of every bag that fits into
a memory with addresses of eight bytes. -/
structure FitsWords (metadata : Metadata) : Prop where
  count : metadata.size < 2 ^ 64
  texts : ∀ entry ∈ metadata.toList,
    entry.1.utf8ByteSize < 2 ^ 64 ∧ entry.2.utf8ByteSize < 2 ^ 64

theorem takeWord_encodeWord {number : Nat} (bound : number < 2 ^ 64) (rest : Bytes) :
    takeWord (encodeWord number ++ rest) = .ok (number, rest) := by
  have width : (encodeWord number).length = wordSize := length_littleEndian _ _
  have value : ofLittleEndian (encodeWord number) = number := ofLittleEndian_littleEndian bound
  simp only [takeWord, List.take_left' width, List.drop_left' width, width, value, Nat.lt_irrefl,
    if_false]

theorem takeText_encodeText {text : String} (bound : text.utf8ByteSize < 2 ^ 64) (rest : Bytes) :
    takeText (encodeText text ++ rest) = .ok (text, rest) := by
  have size : (Utf8.encode text).length < 2 ^ 64 := by rwa [Utf8.length_encode]
  simp only [takeText, encodeText, List.append_assoc, takeWord_encodeWord size, List.take_left,
    List.drop_left, Nat.lt_irrefl, if_false, Utf8.decode_encode]

/-- Keys and values are read back one after the other. -/
theorem takeEntries_flatMap {entries : List (String × String)}
    (bounds : ∀ entry ∈ entries, entry.1.utf8ByteSize < 2 ^ 64 ∧ entry.2.utf8ByteSize < 2 ^ 64)
    (rest : Bytes) :
    takeEntries entries.length
      (entries.flatMap (fun entry => encodeText entry.1 ++ encodeText entry.2) ++ rest)
        = .ok entries := by
  induction entries with
  | nil => rfl
  | cons entry entries inductionHypothesis =>
      obtain ⟨⟨keyBound, valueBound⟩, bounds⟩ := List.forall_mem_cons.1 bounds
      simp only [List.length_cons, takeEntries, takeEntry, List.flatMap_cons, List.append_assoc,
        takeText_encodeText keyBound, takeText_encodeText valueBound, inductionHypothesis bounds]

/-- A bag is read back from its record, whatever follows the record. -/
theorem decode_encode_append {metadata : Metadata} (fits : metadata.FitsWords) (rest : Bytes) :
    decode (metadata.encode ++ rest) = .ok metadata := by
  have entries : takeEntries metadata.size
      (metadata.toList.flatMap (fun entry => encodeText entry.1 ++ encodeText entry.2) ++ rest)
        = .ok metadata.toList := takeEntries_flatMap fits.texts rest
  have rebuilt : ofEntries metadata.toList = metadata :=
    congrArg Metadata.mk (OrderedMap.ofList_entries metadata.values)
  simp only [decode, encode, List.append_assoc, takeWord_encodeWord fits.count, entries, rebuilt]

/-- A bag is read back from its record. -/
theorem decode_encode {metadata : Metadata} (fits : metadata.FitsWords) :
    decode metadata.encode = .ok metadata := by
  have read := decode_encode_append fits []
  rwa [List.append_nil] at read

end Metadata

end Depot
