/-!
# Maps in key order

A finite map kept as the list of its entries in strictly ascending key order.
The order is part of the value, so two maps with the same bindings are the same
value, and the entry list is at once the map's listing and its normal form.
This module knows nothing of what keys and values mean.
-/

namespace Depot

/-- A finite map whose entries stand in strictly ascending key order. -/
structure OrderedMap (κ υ : Type) [Ord κ] where
  entries : List (κ × υ)
  ascending : entries.Pairwise fun left right => compare left.1 right.1 = .lt

namespace OrderedMap

variable {κ υ : Type} [Ord κ]

/-- Maps are equal exactly when they list the same bindings. -/
@[ext] theorem ext {left right : OrderedMap κ υ} (same : left.entries = right.entries) :
    left = right := by
  cases left; cases right; cases same; rfl

instance [DecidableEq κ] [DecidableEq υ] : DecidableEq (OrderedMap κ υ) := fun left right =>
  decidable_of_iff (left.entries = right.entries) ⟨ext, congrArg entries⟩

/-- The map without bindings. -/
def empty : OrderedMap κ υ := ⟨[], .nil⟩

instance : EmptyCollection (OrderedMap κ υ) := ⟨empty⟩

instance : Inhabited (OrderedMap κ υ) := ⟨empty⟩

/-- The value a list of bindings gives to `key`, the first one counting. -/
def lookup (key : κ) : List (κ × υ) → Option υ
  | [] => none
  | (held, value) :: rest => if compare key held = .eq then some value else lookup key rest

/-- Binds `key` in a list of bindings, at its place in the order. -/
def place (key : κ) (value : υ) : List (κ × υ) → List (κ × υ)
  | [] => [(key, value)]
  | (held, old) :: rest =>
    match compare key held with
    | .lt => (key, value) :: (held, old) :: rest
    | .eq => (key, value) :: rest
    | .gt => (held, old) :: place key value rest

/-- Placing a binding adds no key but its own. -/
theorem mem_place {key : κ} {value : υ} {bindings : List (κ × υ)} {entry : κ × υ}
    (member : entry ∈ place key value bindings) : entry = (key, value) ∨ entry ∈ bindings := by
  induction bindings with
  | nil => simpa [place] using member
  | cons head rest inductionHypothesis =>
      simp only [place] at member
      split at member
      · simpa using member
      · rcases List.mem_cons.1 member with rfl | later
        · exact .inl rfl
        · exact .inr (List.mem_cons_of_mem _ later)
      · rcases List.mem_cons.1 member with rfl | later
        · exact .inr List.mem_cons_self
        · exact (inductionHypothesis later).imp_right (List.mem_cons_of_mem _)

/-- Placing a binding keeps the key order. -/
theorem place_ascending [Std.TransOrd κ] (key : κ) (value : υ) {bindings : List (κ × υ)}
    (ordered : bindings.Pairwise fun left right => compare left.1 right.1 = .lt) :
    (place key value bindings).Pairwise fun left right => compare left.1 right.1 = .lt := by
  induction bindings with
  | nil => simp [place]
  | cons head rest inductionHypothesis =>
      obtain ⟨below, ordered⟩ := List.pairwise_cons.1 ordered
      simp only [place]
      split
      · rename_i before
        refine List.pairwise_cons.2 ⟨fun entry member => ?_, List.pairwise_cons.2 ⟨below, ordered⟩⟩
        rcases List.mem_cons.1 member with rfl | later
        · exact before
        · exact Std.TransCmp.lt_trans before (below entry later)
      · rename_i same
        refine List.pairwise_cons.2 ⟨fun entry member => ?_, ordered⟩
        exact Std.TransCmp.lt_of_eq_of_lt same (below entry member)
      · rename_i after
        refine List.pairwise_cons.2 ⟨fun entry member => ?_, inductionHypothesis ordered⟩
        rcases mem_place member with rfl | later
        · exact Std.OrientedCmp.gt_iff_lt.1 after
        · exact below entry later

/-- The value bound to `key`. -/
def get? (map : OrderedMap κ υ) (key : κ) : Option υ := lookup key map.entries

/-- Whether `key` is bound. -/
def contains (map : OrderedMap κ υ) (key : κ) : Bool := (map.get? key).isSome

/-- Binds `key` to `value`, replacing any binding it had. -/
def insert [Std.TransOrd κ] (map : OrderedMap κ υ) (key : κ) (value : υ) : OrderedMap κ υ :=
  ⟨place key value map.entries, place_ascending key value map.ascending⟩

/-- Removes the binding of `key`, if there is one. -/
def erase (map : OrderedMap κ υ) (key : κ) : OrderedMap κ υ :=
  ⟨map.entries.filter fun entry => compare key entry.1 != .eq, map.ascending.filter _⟩

/-- The bindings that satisfy `keep`. -/
def filter (map : OrderedMap κ υ) (keep : κ → υ → Bool) : OrderedMap κ υ :=
  ⟨map.entries.filter fun entry => keep entry.1 entry.2, map.ascending.filter _⟩

/-- The number of bindings. -/
def size (map : OrderedMap κ υ) : Nat := map.entries.length

/-- Whether nothing is bound. -/
def isEmpty (map : OrderedMap κ υ) : Bool := map.entries.isEmpty

/-- The keys, ascending. -/
def keys (map : OrderedMap κ υ) : List κ := map.entries.map Prod.fst

/-- The map of a list of bindings, in which the last binding of a key counts. -/
def ofList [Std.TransOrd κ] (bindings : List (κ × υ)) : OrderedMap κ υ :=
  bindings.foldl (fun map entry => map.insert entry.1 entry.2) empty

/-- Nothing is bound in the empty map. -/
@[simp] theorem get?_empty (key : κ) : (empty : OrderedMap κ υ).get? key = none := rfl

/-- What is placed is what is looked up; other keys keep their values. -/
theorem lookup_place [Std.TransOrd κ] [Std.LawfulEqOrd κ] (key sought : κ) (value : υ)
    (bindings : List (κ × υ)) :
    lookup sought (place key value bindings) =
      if compare sought key = .eq then some value else lookup sought bindings := by
  induction bindings with
  | nil => rfl
  | cons head rest inductionHypothesis =>
      simp only [place]
      split
      · rfl
      · rename_i same
        obtain rfl := Std.LawfulEqOrd.eq_of_compare same
        simp only [lookup]
        split <;> rfl
      · rename_i after
        simp only [lookup, inductionHypothesis]
        by_cases found : compare sought head.1 = .eq
        · obtain rfl := Std.LawfulEqOrd.eq_of_compare found
          have apart : compare head.1 key ≠ .eq := by
            rw [Std.OrientedCmp.gt_iff_lt.1 after]
            decide
          simp [apart]
        · simp [found]

/-- An inserted binding is found; other keys keep their values. -/
theorem get?_insert [Std.TransOrd κ] [Std.LawfulEqOrd κ] (map : OrderedMap κ υ) (key sought : κ)
    (value : υ) :
    (map.insert key value).get? sought =
      if compare sought key = .eq then some value else map.get? sought :=
  lookup_place key sought value map.entries

/-- What is filtered out is not looked up; other keys keep their values. -/
theorem lookup_filter_ne [Std.TransOrd κ] [Std.LawfulEqOrd κ] (key sought : κ)
    (bindings : List (κ × υ)) :
    lookup sought (bindings.filter fun entry => compare key entry.1 != .eq) =
      if compare sought key = .eq then none else lookup sought bindings := by
  induction bindings with
  | nil => simp [lookup]
  | cons head rest inductionHypothesis =>
      by_cases same : compare key head.1 = .eq
      · obtain rfl := Std.LawfulEqOrd.eq_of_compare same
        simp only [List.filter_cons, same, bne_self_eq_false, Bool.false_eq_true, if_false,
          inductionHypothesis, lookup]
        split <;> rfl
      · have kept : (compare key head.1 != .eq) = true := by simpa using same
        simp only [List.filter_cons, kept, if_true, lookup, inductionHypothesis]
        by_cases found : compare sought head.1 = .eq
        · obtain rfl := Std.LawfulEqOrd.eq_of_compare found
          have apart : compare head.1 key ≠ .eq := fun equal =>
            same (Std.OrientedCmp.eq_symm equal)
          simp [apart]
        · simp [found]

/-- An erased key is not found; other keys keep their values. -/
theorem get?_erase [Std.TransOrd κ] [Std.LawfulEqOrd κ] (map : OrderedMap κ υ) (key sought : κ) :
    (map.erase key).get? sought =
      if compare sought key = .eq then none else map.get? sought :=
  lookup_filter_ne key sought map.entries

/-- A key that is bound is bound in the list of entries. -/
theorem mem_of_lookup [Std.LawfulEqOrd κ] {key : κ} {value : υ} {bindings : List (κ × υ)}
    (found : lookup key bindings = some value) : (key, value) ∈ bindings := by
  induction bindings with
  | nil => simp [lookup] at found
  | cons head rest inductionHypothesis =>
      simp only [lookup] at found
      split at found
      · rename_i same
        obtain rfl := Std.LawfulEqOrd.eq_of_compare same
        obtain rfl := Option.some.inj found
        exact List.mem_cons_self
      · exact List.mem_cons_of_mem _ (inductionHypothesis found)

/-- In an ascending list of entries every entry is the one its key looks up. -/
theorem lookup_of_mem [Std.TransOrd κ] {key : κ} {value : υ} {bindings : List (κ × υ)}
    (ordered : bindings.Pairwise fun left right => compare left.1 right.1 = .lt)
    (member : (key, value) ∈ bindings) : lookup key bindings = some value := by
  induction bindings with
  | nil => simp at member
  | cons head rest inductionHypothesis =>
      obtain ⟨below, ordered⟩ := List.pairwise_cons.1 ordered
      rcases List.mem_cons.1 member with rfl | later
      · simp [lookup]
      · have apart : compare key head.1 ≠ .eq := by
          rw [Std.OrientedCmp.gt_iff_lt.2 (below (key, value) later)]
          decide
        simp [lookup, apart, inductionHypothesis ordered later]

/-- The entries of a map are its bindings. -/
theorem mem_entries_iff [Std.TransOrd κ] [Std.LawfulEqOrd κ] (map : OrderedMap κ υ) (key : κ)
    (value : υ) : (key, value) ∈ map.entries ↔ map.get? key = some value :=
  ⟨lookup_of_mem map.ascending, mem_of_lookup⟩

end OrderedMap

end Depot
