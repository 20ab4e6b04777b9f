import Mathlib.Algebra.GroupWithZero.Nat
import Mathlib.Data.List.Sort
import Depot.OrderedMap

/-!
# Maps as functions of their keys

A map is determined by what its keys look up, so everything about maps can be said
through `get?`. This module says it for every operation and for the lists that
maps are built from.
-/

namespace Depot.OrderedMap

variable {κ υ ω : Type} [Ord κ] [Std.TransOrd κ] [Std.LawfulEqOrd κ]

/-- Maps are equal exactly when all keys look up the same. -/
theorem ext_get? {left right : OrderedMap κ υ} (same : ∀ key, left.get? key = right.get? key) :
    left = right := by
  have asymmetric : Std.Antisymm fun left right : κ × υ => compare left.1 right.1 = .lt :=
    ⟨fun _ _ before after => absurd before (by rw [Std.OrientedCmp.gt_of_lt after]; decide)⟩
  have irreflexive : Std.Irrefl fun left right : κ × υ => compare left.1 right.1 = .lt :=
    ⟨fun entry below => absurd below (by rw [Std.compare_self]; decide)⟩
  apply ext
  refine left.ascending.eq_of_mem_iff right.ascending ?_
  rintro ⟨key, value⟩
  rw [mem_entries_iff, mem_entries_iff, same]

section

variable [DecidableEq κ]

/-- An inserted binding is found, and other keys keep their values. -/
theorem get?_insert_eq (map : OrderedMap κ υ) (key sought : κ) (value : υ) :
    (map.insert key value).get? sought = if sought = key then some value else map.get? sought := by
  simp only [get?_insert, Std.compare_eq_iff_eq]

/-- An erased key is not found, and other keys keep their values. -/
theorem get?_erase_eq (map : OrderedMap κ υ) (key sought : κ) :
    (map.erase key).get? sought = if sought = key then none else map.get? sought := by
  simp only [get?_erase, Std.compare_eq_iff_eq]

@[simp] theorem get?_insert_self (map : OrderedMap κ υ) (key : κ) (value : υ) :
    (map.insert key value).get? key = some value := by
  rw [get?_insert_eq, if_pos rfl]

theorem get?_insert_of_ne (map : OrderedMap κ υ) {key sought : κ} (value : υ)
    (apart : sought ≠ key) : (map.insert key value).get? sought = map.get? sought := by
  rw [get?_insert_eq, if_neg apart]

@[simp] theorem get?_erase_self (map : OrderedMap κ υ) (key : κ) :
    (map.erase key).get? key = none := by
  rw [get?_erase_eq, if_pos rfl]

theorem get?_erase_of_ne (map : OrderedMap κ υ) {key sought : κ} (apart : sought ≠ key) :
    (map.erase key).get? sought = map.get? sought := by
  rw [get?_erase_eq, if_neg apart]

/-- Removal after removal, all keys of a list are gone. -/
theorem get?_foldl_erase (keys : List κ) (map : OrderedMap κ υ) (sought : κ) :
    (keys.foldl erase map).get? sought = if sought ∈ keys then none else map.get? sought := by
  induction keys generalizing map with
  | nil => simp
  | cons key rest inductionHypothesis =>
      rw [List.foldl_cons, inductionHypothesis, get?_erase_eq]
      by_cases later : sought ∈ rest
      · simp [later]
      · simp [later]

/-- A map that was changed at one key is the old one again once the key is back to what it
was. -/
theorem restored_of_get?_eq {map changed : OrderedMap κ υ} {key : κ}
    (elsewhere : ∀ sought, sought ≠ key → changed.get? sought = map.get? sought) :
    (match map.get? key with
      | some value => changed.insert key value
      | none => changed.erase key) = map := by
  refine ext_get? fun sought => ?_
  cases held : map.get? key with
  | some value =>
      by_cases same : sought = key
      · rw [same, held, get?_insert_self]
      · rw [get?_insert_of_ne _ _ same, elsewhere sought same]
  | none =>
      by_cases same : sought = key
      · rw [same, held, get?_erase_self]
      · rw [get?_erase_of_ne _ same, elsewhere sought same]

/-- A binding under a free key leaves nothing behind once it is removed. -/
theorem erase_insert_of_free (map : OrderedMap κ υ) {key : κ} (value : υ)
    (free : map.get? key = none) : (map.insert key value).erase key = map := by
  refine ext_get? fun sought => ?_
  by_cases same : sought = key
  · rw [same, get?_erase_self, free]
  · rw [get?_erase_of_ne _ same, get?_insert_of_ne _ _ same]

/-- A value is found after a removal if it was there before, under another key. -/
theorem get?_erase_eq_some_iff {map : OrderedMap κ υ} {key sought : κ} {value : υ} :
    (map.erase key).get? sought = some value ↔ map.get? sought = some value ∧ sought ≠ key := by
  rw [get?_erase_eq]
  by_cases same : sought = key
  · simp [same]
  · simp [same]

/-- What is found after a removal was there before. -/
theorem get?_of_get?_erase {map : OrderedMap κ υ} {key sought : κ} {value : υ}
    (found : (map.erase key).get? sought = some value) :
    sought ≠ key ∧ map.get? sought = some value := by
  rw [get?_erase_eq] at found
  split at found
  · exact absurd found (by simp)
  · exact ⟨‹_›, found⟩

end

/-- A filtered map looks up what it kept. -/
theorem get?_filter (map : OrderedMap κ υ) (keep : κ → υ → Bool) (key : κ) :
    (map.filter keep).get? key = (map.get? key).filter (keep key) := by
  apply Option.ext
  intro value
  rw [← mem_entries_iff, Option.filter_eq_some_iff, ← mem_entries_iff]
  exact List.mem_filter

omit [Std.TransOrd κ] [Std.LawfulEqOrd κ] in
@[simp] theorem contains_eq_isSome (map : OrderedMap κ υ) (key : κ) :
    map.contains key = (map.get? key).isSome := rfl

theorem mem_keys_iff (map : OrderedMap κ υ) (key : κ) :
    key ∈ map.keys ↔ (map.get? key).isSome := by
  rw [Option.isSome_iff_exists]
  constructor
  · intro member
    obtain ⟨⟨held, value⟩, entry, rfl⟩ := List.mem_map.1 member
    exact ⟨value, (map.mem_entries_iff held value).1 entry⟩
  · rintro ⟨value, found⟩
    exact List.mem_map.2 ⟨(key, value), (map.mem_entries_iff key value).2 found, rfl⟩

omit [Std.TransOrd κ] in
/-- No key is bound twice. -/
theorem nodup_keys (map : OrderedMap κ υ) : (map.entries.map Prod.fst).Nodup := by
  refine List.pairwise_map.2 (map.ascending.imp fun below same => ?_)
  rw [same, Std.compare_self] at below
  exact absurd below (by simp)

omit [Std.LawfulEqOrd κ] in
/-- A key that is not bound yet makes a map one longer. -/
theorem size_insert_of_free (map : OrderedMap κ υ) {key : κ} (value : υ)
    (free : map.get? key = none) : (map.insert key value).size = map.size + 1 := by
  show (place key value map.entries).length = map.entries.length + 1
  have free : lookup key map.entries = none := free
  generalize map.entries = bindings at free
  induction bindings with
  | nil => rfl
  | cons head rest inductionHypothesis =>
      rw [lookup] at free
      split at free
      · exact absurd free (by simp)
      · rename_i apart
        rw [place]
        split
        · rfl
        · exact absurd ‹_› apart
        · rw [List.length_cons, inductionHypothesis free, List.length_cons]

omit [Std.TransOrd κ] [Std.LawfulEqOrd κ] in
/-- What is kept of a map and what is left out are together as long as the map. -/
theorem size_filter_add (map : OrderedMap κ υ) (keep : κ → υ → Bool) :
    (map.filter keep).size + (map.entries.filter fun entry => !keep entry.1 entry.2).length
      = map.size :=
  (List.length_eq_length_filter_add (l := map.entries) fun entry => keep entry.1 entry.2).symm

omit [Std.TransOrd κ] [Std.LawfulEqOrd κ] in
/-- Values that are computed from the entries of a map, some of them left out, stand in the
order of the map. -/
theorem filterMap_ascending (map : OrderedMap κ υ) (compute : κ → υ → Option ω) :
    (map.entries.filterMap fun entry =>
      (compute entry.1 entry.2).map (entry.1, ·)).Pairwise fun left right =>
        compare left.1 right.1 = .lt := by
  refine map.ascending.filterMap _ fun left right below first firstFound second secondFound => ?_
  obtain ⟨_, _, rfl⟩ := Option.map_eq_some_iff.1 firstFound
  obtain ⟨_, _, rfl⟩ := Option.map_eq_some_iff.1 secondFound
  exact below

/-- Values that are computed from the entries of a map, some of them left out, are
looked up as they are computed. -/
theorem lookup_filterMap (map : OrderedMap κ υ) (compute : κ → υ → Option ω) (key : κ) :
    lookup key (map.entries.filterMap fun entry => (compute entry.1 entry.2).map (entry.1, ·))
      = (map.get? key).bind (compute key) := by
  have ordered := map.filterMap_ascending compute
  apply Option.ext
  intro value
  rw [Option.bind_eq_some_iff]
  constructor
  · intro found
    obtain ⟨⟨held, source⟩, entry, computed⟩ := List.mem_filterMap.1 (mem_of_lookup found)
    obtain ⟨result, resultFound, pair⟩ := Option.map_eq_some_iff.1 computed
    obtain ⟨rfl, rfl⟩ := Prod.mk.inj pair
    exact ⟨source, (map.mem_entries_iff _ _).1 entry, resultFound⟩
  · rintro ⟨source, found, computed⟩
    refine lookup_of_mem ordered (List.mem_filterMap.2 ⟨(key, source), ?_, ?_⟩)
    · exact (map.mem_entries_iff _ _).2 found
    · simp only [computed, Option.map_some]

/-- Insertion after insertion, the entries of a map are added to another map. -/
theorem get?_foldl_insert [DecidableEq κ] {bindings : List (κ × υ)}
    (ordered : bindings.Pairwise fun left right => compare left.1 right.1 = .lt)
    (start : OrderedMap κ υ) (key : κ) :
    (bindings.foldl (fun map entry => map.insert entry.1 entry.2) start).get? key
      = (lookup key bindings).or (start.get? key) := by
  induction bindings generalizing start with
  | nil => simp [lookup]
  | cons head rest inductionHypothesis =>
      obtain ⟨below, ordered⟩ := List.pairwise_cons.1 ordered
      rw [List.foldl_cons, inductionHypothesis ordered, get?_insert_eq, lookup]
      by_cases same : key = head.1
      · have absent : lookup key rest = none := by
          refine Option.eq_none_iff_forall_ne_some.2 fun value found => ?_
          have earlier := below _ (mem_of_lookup found)
          rw [same, Std.compare_self] at earlier
          exact absurd earlier (by decide)
        simp [same ▸ absent, same]
      · simp [same]

/-- Insertion after insertion, the last one of a key counts. -/
theorem get?_foldl_insert_last {ι : Type} [DecidableEq κ]
    (items : List ι) (key : ι → κ) (value : ι → υ) (start : OrderedMap κ υ) (sought : κ) :
    (items.foldl (fun map item => map.insert (key item) (value item)) start).get? sought
      = ((items.reverse.find? fun item => key item = sought).map value).or (start.get? sought) := by
  induction items generalizing start with
  | nil => simp
  | cons item rest inductionHypothesis =>
      rw [List.foldl_cons, inductionHypothesis, get?_insert_eq, List.reverse_cons,
        List.find?_append]
      cases rest.reverse.find? fun item => key item = sought with
      | some later => simp
      | none =>
          by_cases same : key item = sought
          · simp [same]
          · simp [same, Ne.symm same]

/-- A map is the map of its entries. -/
@[simp] theorem ofList_entries [DecidableEq κ] (map : OrderedMap κ υ) :
    ofList map.entries = map := by
  refine ext_get? fun key => ?_
  rw [ofList, get?_foldl_insert map.ascending, get?_empty, Option.or_none]
  rfl

/-! ## Weights -/

omit [Std.TransOrd κ] [Std.LawfulEqOrd κ] in
/-- A binding that is placed adds no more than its own weight. -/
theorem sum_place_le (weight : κ × υ → Nat) (key : κ) (value : υ) (bindings : List (κ × υ)) :
    ((place key value bindings).map weight).sum
      ≤ weight (key, value) + (bindings.map weight).sum := by
  induction bindings with
  | nil => rfl
  | cons head rest inductionHypothesis =>
      obtain ⟨held, old⟩ := head
      rw [place]
      split
      · simp only [List.map_cons, List.sum_cons, Nat.le_refl]
      · simp only [List.map_cons, List.sum_cons]
        omega
      · simp only [List.map_cons, List.sum_cons]
        omega

omit [Std.LawfulEqOrd κ] in
/-- A map weighs no more than the bindings that it is built from. -/
theorem sum_foldl_insert_le (weight : κ × υ → Nat) (bindings : List (κ × υ))
    (start : OrderedMap κ υ) :
    ((bindings.foldl (fun map entry => map.insert entry.1 entry.2) start).entries.map weight).sum
      ≤ (start.entries.map weight).sum + (bindings.map weight).sum := by
  induction bindings generalizing start with
  | nil => simp
  | cons head rest inductionHypothesis =>
      have placed := sum_place_le weight head.1 head.2 start.entries
      calc
        _ ≤ ((start.insert head.1 head.2).entries.map weight).sum + (rest.map weight).sum :=
          inductionHypothesis _
        _ ≤ weight head + (start.entries.map weight).sum + (rest.map weight).sum :=
          Nat.add_le_add_right placed _
        _ = (start.entries.map weight).sum + ((head :: rest).map weight).sum := by
          rw [List.map_cons, List.sum_cons]
          omega

omit [Std.LawfulEqOrd κ] in
theorem sum_ofList_le (weight : κ × υ → Nat) (bindings : List (κ × υ)) :
    ((ofList bindings).entries.map weight).sum ≤ (bindings.map weight).sum := by
  have built := sum_foldl_insert_le weight bindings empty
  rwa [show (empty : OrderedMap κ υ).entries = [] from rfl, List.map_nil, List.sum_nil,
    Nat.zero_add] at built

omit [Std.LawfulEqOrd κ] in
/-- So it has no more entries than there are bindings. -/
theorem size_ofList_le (bindings : List (κ × υ)) : (ofList bindings).size ≤ bindings.length := by
  have counted := sum_ofList_le (fun _ => 1) bindings
  rw [size]
  simpa using counted

end Depot.OrderedMap
