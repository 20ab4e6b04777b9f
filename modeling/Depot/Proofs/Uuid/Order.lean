import Mathlib.Tactic.TFAE
import Depot.OrderedMap
import Depot.Proofs.Spelling

/-!
# The order of identifiers

Numerals of one width stand in the order of their numbers, whatever the base is, and separators in
the same places do not change an order. So identifiers stand in the order of their sixteen octets,
and their storage keys stand in the order of the identifiers: a region that is kept under such keys
is visited identifier by identifier. With what is known of spellings, text and keys say of an
identifier what it is and nothing else.
-/

namespace Depot

variable {α β : Type} [Ord α] [Ord β]

/-- Lists whose fronts have the same length are compared by their fronts and then by the rest. -/
theorem compare_append {left right : List α} (size : left.length = right.length)
    (leftRest rightRest : List α) :
    compare (left ++ leftRest) (right ++ rightRest)
      = (compare left right).then (compare leftRest rightRest) := by
  induction left generalizing right with
  | nil =>
      obtain rfl := List.length_eq_zero_iff.1 size.symm
      rfl
  | cons head tail inductionHypothesis =>
      obtain ⟨otherHead, otherTail, rfl⟩ := List.exists_cons_of_length_eq_add_one size.symm
      have sizes : tail.length = otherTail.length := Nat.succ.inj size
      simp only [List.cons_append, List.compare_cons_cons, inductionHypothesis sizes,
        Ordering.then_assoc]

/-- Lists are compared as before once their members are replaced by members in the same order. -/
theorem compare_map {change : α → β} {left right : List α}
    (keeps : ∀ first ∈ left, ∀ second ∈ right,
      compare (change first) (change second) = compare first second) :
    compare (left.map change) (right.map change) = compare left right := by
  induction left generalizing right with
  | nil => cases right <;> rfl
  | cons head tail inductionHypothesis =>
      cases right with
      | nil => rfl
      | cons otherHead otherTail =>
          have heads := keeps head List.mem_cons_self otherHead List.mem_cons_self
          have tails := @inductionHypothesis otherTail fun first member second among =>
            keeps first (List.mem_cons_of_mem _ member) second (List.mem_cons_of_mem _ among)
          rw [List.map_cons, List.map_cons, List.compare_cons_cons, List.compare_cons_cons, heads,
            tails]

/-! ## Numerals -/

/-- The last `count` digits of a number in a base, most significant first. -/
def numeral (base : Nat) : (count : Nat) → (number : Nat) → List Nat
  | 0, _ => []
  | count + 1, number => numeral base count (number / base) ++ [number % base]

theorem length_numeral (base count number : Nat) : (numeral base count number).length = count := by
  induction count generalizing number with
  | zero => rfl
  | succ count inductionHypothesis => simp [numeral, inductionHypothesis]

/-- The digits of a numeral are below its base. -/
theorem lt_of_mem_numeral {base count number digit : Nat} (positive : 0 < base)
    (member : digit ∈ numeral base count number) : digit < base := by
  induction count generalizing number with
  | zero => exact absurd member List.not_mem_nil
  | succ count inductionHypothesis =>
      rcases List.mem_append.1 member with earlier | last
      · exact inductionHypothesis earlier
      · rw [List.mem_singleton.1 last]
        exact Nat.mod_lt _ positive

/-- Numbers are compared by what they are without their last digits and then by these. -/
theorem compare_div_then_mod {base : Nat} (positive : 0 < base) (left right : Nat) :
    (compare (left / base) (right / base)).then (compare (left % base) (right % base))
      = compare left right := by
  have leftSplit := Nat.div_add_mod left base
  have rightSplit := Nat.div_add_mod right base
  have leftLast := Nat.mod_lt left positive
  have rightLast := Nat.mod_lt right positive
  -- a number with fewer whole bases is smaller, whatever its last digit is
  have smaller {less more lessLast moreLast : Nat} (below : less < more) (last : lessLast < base) :
      base * less + lessLast < base * more + moreLast := by
    have whole : base * (less + 1) ≤ base * more := Nat.mul_le_mul_left base below
    rw [Nat.mul_succ] at whole
    omega
  rcases Nat.lt_trichotomy (left / base) (right / base) with below | same | above
  · rw [Nat.compare_eq_lt.2 below]
    have least := @smaller _ _ (left % base) (right % base) below leftLast
    rw [leftSplit, rightSplit] at least
    exact (Nat.compare_eq_lt.2 least).symm
  · rw [Nat.compare_eq_eq.2 same]
    show compare (left % base) (right % base) = _
    rw [← leftSplit, ← rightSplit, same]
    simp only [Nat.compare_eq_ite_lt, Nat.add_lt_add_iff_left, Nat.mul_add_mod,
      Nat.mod_mod]
  · rw [Nat.compare_eq_gt.2 above]
    have least := @smaller _ _ (right % base) (left % base) above rightLast
    rw [leftSplit, rightSplit] at least
    exact (Nat.compare_eq_gt.2 least).symm

/-- Numerals of one width stand in the order of the numbers that they can tell apart. -/
theorem compare_numeral {base count left right : Nat} (positive : 0 < base)
    (leftBound : left < base ^ count) (rightBound : right < base ^ count) :
    compare (numeral base count left) (numeral base count right) = compare left right := by
  induction count generalizing left right with
  | zero =>
      rw [Nat.pow_zero, Nat.lt_one_iff] at leftBound rightBound
      rw [leftBound, rightBound]
      rfl
  | succ count inductionHypothesis =>
      rw [Nat.pow_succ] at leftBound rightBound
      have sizes : (numeral base count (left / base)).length
          = (numeral base count (right / base)).length := by
        rw [length_numeral, length_numeral]
      have shorter := inductionHypothesis (Nat.div_lt_of_lt_mul (Nat.mul_comm _ base ▸ leftBound))
        (Nat.div_lt_of_lt_mul (Nat.mul_comm _ base ▸ rightBound))
      rw [numeral, numeral, compare_append sizes, shorter, List.compare_cons_cons,
        List.compare_nil_nil, Ordering.then_eq, compare_div_then_mod positive]

namespace Hexadecimal

/-- Hexadecimal digits are those of the numeral in base sixteen. -/
theorem digits_eq_map_numeral (count number : Nat) :
    digits count number = (numeral 16 count number).map digit := by
  induction count generalizing number with
  | zero => rfl
  | succ count inductionHypothesis => simp [digits, numeral, inductionHypothesis]

end Hexadecimal

namespace Uuid

/-- The sixteen octets of the value, most significant first. -/
def octets (uuid : Uuid) : Bytes := (numeral 256 16 uuid.bits.toNat).map UInt8.ofNat

/-- Bytes stand in the order of the numbers that they hold. -/
theorem compare_ofNat {number other : Nat} (bound : number < 256) (otherBound : other < 256) :
    compare (UInt8.ofNat number) (UInt8.ofNat other) = compare number other := by
  have kept : (UInt8.ofNat number).toNat = number := UInt8.toNat_ofNat_of_lt' bound
  have otherKept : (UInt8.ofNat other).toNat = other := UInt8.toNat_ofNat_of_lt' otherBound
  rcases Nat.lt_trichotomy number other with below | same | above
  · rw [Nat.compare_eq_lt.2 below, Std.compare_eq_lt, UInt8.lt_iff_toNat_lt, kept, otherKept]
    exact below
  · rw [same, Std.compare_self, Std.compare_self]
  · rw [Nat.compare_eq_gt.2 above, Std.compare_eq_gt, UInt8.lt_iff_toNat_lt, kept, otherKept]
    exact above

/-- Identifiers stand in the order of their octets. -/
theorem compare_octets (left right : Uuid) :
    compare left.octets right.octets = compare left right := by
  have mapped : compare left.octets right.octets
      = compare (numeral 256 16 left.bits.toNat) (numeral 256 16 right.bits.toNat) :=
    compare_map fun first member second among => compare_ofNat
      (lt_of_mem_numeral (by decide) member) (lt_of_mem_numeral (by decide) among)
  exact mapped.trans (compare_numeral (by decide) left.bits.isLt right.bits.isLt)

/-- The digits of identifiers stand, as bytes, in the order of the identifiers. -/
theorem compare_digits (left right : Uuid) :
    compare (left.digits.map fun digit => digit.val.toUInt8)
        (right.digits.map fun digit => digit.val.toUInt8)
      = compare left right := by
  have ordered : ∀ first second : Fin 16,
      compare (Hexadecimal.digit first).val.toUInt8 (Hexadecimal.digit second).val.toUInt8
        = compare first.val second.val := by decide
  rw [digits, digits, Hexadecimal.digits_eq_map_numeral, Hexadecimal.digits_eq_map_numeral,
    List.map_map, List.map_map]
  have mapped := @compare_map _ _ _ _
    ((fun digit : Char => digit.val.toUInt8) ∘ Hexadecimal.digit)
    (numeral 16 32 left.bits.toNat) (numeral 16 32 right.bits.toNat)
    fun first member second among => ordered
      ⟨first, lt_of_mem_numeral (by decide) member⟩ ⟨second, lt_of_mem_numeral (by decide) among⟩
  exact mapped.trans (compare_numeral (by decide) left.bits.isLt right.bits.isLt)

/-- Hyphens in the same places do not change the order of characters. -/
theorem compare_hyphenate [Std.ReflOrd α] {sizes : List Nat} (code : Char → α)
    {left right : List Char} (leftTotal : left.length = sizes.sum)
    (rightTotal : right.length = sizes.sum) :
    compare ((hyphenate sizes left).map code) ((hyphenate sizes right).map code)
      = compare (left.map code) (right.map code) := by
  induction sizes generalizing left right with
  | nil =>
      rw [List.length_eq_zero_iff.1 leftTotal, List.length_eq_zero_iff.1 rightTotal]
      rfl
  | cons size sizes inductionHypothesis =>
      rw [List.sum_cons] at leftTotal rightTotal
      -- both are cut after as many characters
      have fronts : ((left.take size).map code).length = ((right.take size).map code).length := by
        simp only [List.length_map, List.length_take]
        omega
      cases sizes with
      | nil =>
          have leftWhole : left.length ≤ size := by simp at leftTotal; omega
          have rightWhole : right.length ≤ size := by simp at rightTotal; omega
          simp only [hyphenate, List.take_of_length_le leftWhole,
            List.take_of_length_le rightWhole]
      | cons next sizes =>
          have rests := @inductionHypothesis (left.drop size) (right.drop size)
            (by rw [List.length_drop]; omega) (by rw [List.length_drop]; omega)
          have whole : compare (left.map code) (right.map code)
              = (compare ((left.take size).map code) ((right.take size).map code)).then
                (compare ((left.drop size).map code) ((right.drop size).map code)) := by
            rw [← compare_append fronts, ← List.map_append, ← List.map_append,
              List.take_append_drop, List.take_append_drop]
          simp only [hyphenate, List.map_append, List.map_cons, compare_append fronts,
            List.compare_cons_cons, Std.compare_self, rests, whole]
          rfl

/-- Storage keys stand in the order of their identifiers. -/
theorem compare_key (left right : Uuid) : compare left.key right.key = compare left right := by
  rw [key_eq_map, key_eq_map, toText, toText, String.toList_ofList, String.toList_ofList,
    compare_hyphenate _ (left.length_digits.trans rfl) (right.length_digits.trans rfl),
    compare_digits]

/-- A region whose keys are those of identifiers is visited in the order of the identifiers. -/
theorem pairwise_of_keys {υ : Type} (region : OrderedMap Bytes υ) {uuids : List Uuid}
    (keyed : region.keys = uuids.map key) :
    uuids.Pairwise fun earlier later => compare earlier later = .lt := by
  have ascending : region.keys.Pairwise fun earlier later => compare earlier later = .lt :=
    List.pairwise_map.2 region.ascending
  rw [keyed, List.pairwise_map] at ascending
  exact ascending.imp fun below => (compare_key _ _).symm.trans below

/-- The canonical text and the storage key of an identifier are read back as the identifier. A text
is an accepted spelling exactly if it can be normalised and exactly if it can be read, and it
normalises to the canonical text of what is read, which stays as it is; spellings normalise to the
same text exactly if they spell the same value. Keys stand, byte by byte, in the order of the
identifiers, which is that of their octets, and so do the entries of a region that is kept under
such keys. -/
theorem text_and_key_faithful :
    (∀ uuid : Uuid, ofText uuid.toText = .ok uuid ∧ ofKey uuid.key = .ok uuid) ∧
    (∀ field text : String,
      [isSpelling text = true, ∃ canonical, normalise field text = .ok canonical,
        ∃ uuid, ofText text = .ok uuid, ∃ uuid : Uuid, uuid.Spells text].TFAE) ∧
    (∀ field text canonical : String, normalise field text = .ok canonical →
      normalise field canonical = .ok canonical ∧
        ∃ uuid, ofText text = .ok uuid ∧ uuid.toText = canonical) ∧
    (∀ (field text otherText : String) (uuid other : Uuid),
      uuid.Spells text → other.Spells otherText →
      (normalise field text = normalise field otherText ↔ uuid.bits = other.bits)) ∧
    (∀ left right : Uuid, compare left right = compare left.octets right.octets ∧
      (compare left right = .lt ↔ compare left.key right.key = .lt)) ∧
    (∀ (υ : Type) (region : OrderedMap Bytes υ) (uuids : List Uuid),
      region.keys = uuids.map key →
      uuids.Pairwise fun earlier later => compare earlier later = .lt) := by
  refine ⟨fun uuid => ⟨ofText_eq_ok_iff.2 uuid.parse?_toText, uuid.ofKey_key⟩, ?_, ?_, ?_, ?_,
    fun υ region uuids => pairwise_of_keys region⟩
  · intro field text
    tfae_have 1 ↔ 3 := by
      rw [isSpelling, Option.isSome_iff_exists]
      exact exists_congr fun uuid => ofText_eq_ok_iff.symm
    tfae_have 3 ↔ 4 := exists_congr fun uuid => ofText_eq_ok_iff.trans parse?_eq_some_iff
    tfae_have 4 → 2 := by
      rintro ⟨uuid, spells⟩
      exact ⟨uuid.toText, spells.normalise_eq field⟩
    tfae_have 2 → 4 := by
      rintro ⟨canonical, done⟩
      exact (normalise_eq_ok_iff.1 done).imp fun uuid read => spells_of_parse? read.1
    tfae_finish
  · intro field text canonical done
    obtain ⟨uuid, read, rfl⟩ := normalise_eq_ok_iff.1 done
    exact ⟨normalise_eq_ok_iff.2 ⟨uuid, uuid.parse?_toText, rfl⟩, uuid, ofText_eq_ok_iff.2 read, rfl⟩
  · intro field text otherText uuid other spells otherSpells
    rw [spells.normalise_eq, otherSpells.normalise_eq, Except.ok.injEq]
    constructor
    · exact fun same => congrArg bits (toText_injective same)
    · exact fun same => congrArg (fun value => toText ⟨value⟩) same
  · exact fun left right => ⟨(compare_octets left right).symm, by rw [compare_key]⟩

/-- Two spellings of one identifier are normalised to its canonical text, which is left as it is,
and entries under the keys of two identifiers are visited in the order of the identifiers. -/
theorem text_and_key_faithful_ten :
    let simple := "0000000000000000000000000000000A"
    let name := "urn:uuid:00000000-0000-0000-0000-00000000000a"
    let region := OrderedMap.ofList [(key ⟨10⟩, "later"), (key ⟨9⟩, "earlier")]
    normalise "owner" simple = normalise "owner" name ∧
      normalise "owner" (toText ⟨10⟩) = .ok (toText ⟨10⟩) ∧
      region.keys = [key ⟨9⟩, key ⟨10⟩] ∧ compare (⟨9⟩ : Uuid) ⟨10⟩ = .lt := by
  intro simple name region
  obtain ⟨_, _, stays, same, _, visited⟩ := text_and_key_faithful
  have keyed : region.keys = [⟨9⟩, ⟨10⟩].map key := by decide +kernel
  have ascending := visited String region [⟨9⟩, ⟨10⟩] keyed
  exact ⟨(same "owner" simple name ⟨10⟩ ⟨10⟩ (by decide +kernel) (by decide +kernel)).2 rfl,
    (stays "owner" simple (toText ⟨10⟩) (by decide +kernel)).1, keyed,
    List.rel_of_pairwise_cons ascending (List.mem_singleton_self _)⟩

end Uuid

end Depot
