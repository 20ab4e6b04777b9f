import Depot.Proofs.Metadata.Record
import Depot.Selection

/-!
# How joined parameters select

A record is selected by what it has under the keys of the parameters, and only parameters with a
value ask for something. So two bags of parameters without a common key select together what
either or both select, provided that both ask for something where both must match. Parameters
that ask for nothing select nothing at all, and just these are refused by the validation of
selections.
-/

namespace Depot

namespace Metadata

variable {record parameters others : Metadata}

/-- Constraints are parameters that have a value. -/
theorem mem_constraints_iff {key value : String} :
    (key, value) ∈ parameters.constraints ↔ parameters.get? key = some value ∧ value ≠ "" := by
  rw [constraints, List.mem_filter, decide_eq_true_iff]
  exact and_congr_left fun _ => OrderedMap.mem_entries_iff parameters.values key value

/-! ## Bags that are put together -/

/-- Some value of a bag is not empty. -/
def Filled (metadata : Metadata) : Prop :=
  ∃ key value, metadata.get? key = some value ∧ value ≠ ""

/-- Two bags have no key in common. -/
def Apart (metadata other : Metadata) : Prop :=
  ∀ key, metadata.has key = true → other.has key = false

/-- A bag with the values of another added to it. -/
def union (metadata other : Metadata) : Metadata := ofEntries (metadata.toList ++ other.toList)

theorem apart_iff {metadata other : Metadata} :
    metadata.Apart other ↔ ∀ entry ∈ metadata.toList, other.has entry.1 = false := by
  constructor
  · rintro apart ⟨key, value⟩ member
    exact apart key (has_iff.2 ⟨value, (OrderedMap.mem_entries_iff _ key value).1 member⟩)
  · intro apart key own
    obtain ⟨value, held⟩ := has_iff.1 own
    exact apart (key, value) ((OrderedMap.mem_entries_iff _ key value).2 held)

theorem filled_iff : parameters.Filled ↔ parameters.constraints ≠ [] := by
  constructor
  · rintro ⟨key, value, held, filled⟩
    exact List.ne_nil_of_mem (mem_constraints_iff.2 ⟨held, filled⟩)
  · intro some
    obtain ⟨⟨key, value⟩, member⟩ := List.exists_mem_of_ne_nil _ some
    exact ⟨key, value, mem_constraints_iff.1 member⟩

instance (metadata other : Metadata) : Decidable (metadata.Apart other) :=
  decidable_of_iff _ apart_iff.symm

instance (metadata : Metadata) : Decidable metadata.Filled := decidable_of_iff _ filled_iff.symm

/-- A value that is added is found, and other keys keep their values. -/
theorem get?_union (metadata other : Metadata) (key : String) :
    (metadata.union other).get? key = (other.get? key).or (metadata.get? key) := by
  have first : OrderedMap.ofList metadata.toList = metadata.values :=
    OrderedMap.ofList_entries metadata.values
  have built : (metadata.union other).values
      = other.toList.foldl (fun map entry => map.insert entry.1 entry.2) metadata.values := by
    rw [← first]
    exact List.foldl_append
  rw [get?, built]
  exact OrderedMap.get?_foldl_insert other.values.ascending metadata.values key

/-- Without a key in common, the two together have a value if one of them has it. -/
theorem get?_union_eq_some_iff (apart : parameters.Apart others) {key value : String} :
    (parameters.union others).get? key = some value ↔
      parameters.get? key = some value ∨ others.get? key = some value := by
  rw [get?_union]
  cases held : parameters.get? key with
  | none => simp
  | some own =>
      have free : others.get? key = none := by
        refine Option.eq_none_iff_forall_ne_some.2 fun other found => ?_
        have missing := apart key (has_iff.2 ⟨own, held⟩)
        exact absurd (has_iff.2 ⟨other, found⟩) (by simp [missing])
      simp [free]

theorem filled_union_iff (apart : parameters.Apart others) :
    (parameters.union others).Filled ↔ parameters.Filled ∨ others.Filled := by
  simp only [Filled, get?_union_eq_some_iff apart, or_and_right, exists_or]

/-! ## What is selected -/

theorem isSelected_any :
    record.isSelected parameters .any = parameters.constraints.any record.satisfies := by
  rw [isSelected]
  cases parameters.constraints <;> rfl

theorem isSelected_all : record.isSelected parameters .all = true ↔
    parameters.constraints ≠ [] ∧
      ∀ entry ∈ parameters.constraints, record.satisfies entry = true := by
  rw [isSelected]
  cases parameters.constraints <;> simp

/-- One constraint that the record satisfies is enough. -/
theorem isSelected_any_iff : record.isSelected parameters .any = true ↔
    ∃ key value, parameters.get? key = some value ∧ value ≠ "" ∧ record.get? key = some value := by
  rw [isSelected_any, List.any_eq_true, Prod.exists]
  simp only [mem_constraints_iff, satisfies, decide_eq_true_iff, and_assoc]

/-- There are constraints, and the record satisfies them. -/
theorem isSelected_all_iff : record.isSelected parameters .all = true ↔
    parameters.Filled ∧ ∀ key value, parameters.get? key = some value → value ≠ "" →
      record.get? key = some value := by
  rw [isSelected_all, ← filled_iff, Prod.forall]
  simp only [mem_constraints_iff, satisfies, decide_eq_true_iff, and_imp]

theorem isSelected_union_any (apart : parameters.Apart others) :
    record.isSelected (parameters.union others) .any
      = (record.isSelected parameters .any || record.isSelected others .any) := by
  rw [Bool.eq_iff_iff, Bool.or_eq_true]
  simp only [isSelected_any_iff, get?_union_eq_some_iff apart, or_and_right, exists_or]

theorem isSelected_union_all (apart : parameters.Apart others) (filled : parameters.Filled)
    (othersFilled : others.Filled) :
    record.isSelected (parameters.union others) .all
      = (record.isSelected parameters .all && record.isSelected others .all) := by
  rw [Bool.eq_iff_iff, Bool.and_eq_true]
  simp only [isSelected_all_iff, get?_union_eq_some_iff apart, filled_union_iff apart, filled,
    othersFilled, true_or, true_and, or_imp, forall_and]

/-- Bags that say nothing change nothing. -/
theorem isSelected_union_all_of_not_filled (apart : parameters.Apart others)
    (empty : ¬ others.Filled) :
    record.isSelected (parameters.union others) .all = record.isSelected parameters .all := by
  have silent : ∀ key value, others.get? key = some value → value ≠ "" → False :=
    fun key value held filled => empty ⟨key, value, held, filled⟩
  rw [Bool.eq_iff_iff]
  simp only [isSelected_all_iff, get?_union_eq_some_iff apart, filled_union_iff apart, empty,
    or_false, or_imp, forall_and]
  refine and_congr_right fun _ => and_iff_left ?_
  exact fun key value held filled => (silent key value held filled).elim

theorem isSelected_any_of_all (selected : record.isSelected parameters .all = true) :
    record.isSelected parameters .any = true := by
  obtain ⟨⟨key, value, held, filled⟩, satisfied⟩ := isSelected_all_iff.1 selected
  exact isSelected_any_iff.2 ⟨key, value, held, filled, satisfied key value held filled⟩

/-- A bag is selected by its own values if it has any. -/
theorem isSelected_self_iff (connective : Connective) :
    record.isSelected record connective = true ↔ record.Filled := by
  cases connective with
  | any =>
      rw [isSelected_any_iff]
      exact ⟨fun ⟨key, value, held, filled, _⟩ => ⟨key, value, held, filled⟩,
        fun ⟨key, value, held, filled⟩ => ⟨key, value, held, filled, held⟩⟩
  | all =>
      rw [isSelected_all_iff]
      exact and_iff_left fun _ _ held _ => held

/-- Only what a record has under the keys of the parameters counts. -/
theorem isSelected_congr {other : Metadata} (connective : Connective)
    (same : ∀ key, parameters.has key = true → record.get? key = other.get? key) :
    record.isSelected parameters connective = other.isSelected parameters connective := by
  have agree : ∀ {key value : String}, parameters.get? key = some value →
      record.get? key = other.get? key := fun held => same _ (has_iff.2 ⟨_, held⟩)
  rw [Bool.eq_iff_iff]
  cases connective with
  | any =>
      rw [isSelected_any_iff, isSelected_any_iff]
      refine exists_congr fun key => exists_congr fun value => and_congr_right fun held => ?_
      rw [agree held]
  | all =>
      rw [isSelected_all_iff, isSelected_all_iff]
      refine and_congr_right fun _ => forall_congr' fun key => forall_congr' fun value =>
        forall_congr' fun held => ?_
      rw [agree held]

end Metadata

namespace Selection

open Metadata

/-- A value that spells no identifier is not refused for being empty. -/
theorem requireSpelling_ne_emptySelection (field : String) (value? : Option String) :
    requireSpelling field value? ≠ .error .emptySelection := by
  cases value? with
  | none => simp [requireSpelling]
  | some value => by_cases spelled : Uuid.isSpelling value <;> simp [requireSpelling, spelled]

/-- A selection is refused as empty if no parameter has a value. -/
theorem validate_eq_emptySelection_iff {selection : Selection} :
    selection.validate = .error .emptySelection ↔ ¬ selection.parameters.Filled := by
  have silent : (selection.parameters.toList.all (·.2 = "")) = true ↔
      ¬ selection.parameters.Filled := by
    rw [filled_iff, not_not, constraints, List.filter_eq_nil_iff, List.all_eq_true]
    simp
  have owner := requireSpelling_ne_emptySelection Metadata.Key.owner.text
    (selection.constraint? .owner)
  have identity := requireSpelling_ne_emptySelection Metadata.Key.id.text
    (selection.constraint? .id)
  rw [← silent]
  unfold validate
  simp only [bind, Except.bind, pure, Except.pure, throw, throwThe, MonadExceptOf.throw]
  cases selection.parameters.toList.all (·.2 = "") with
  | true => simp
  | false =>
      cases owned : requireSpelling Metadata.Key.owner.text (selection.constraint? .owner) with
      | error error => simpa [owned] using owner
      | ok =>
          cases spelled : requireSpelling Metadata.Key.id.text (selection.constraint? .id) with
          | error error => simpa [spelled] using identity
          | ok =>
              by_cases nameless : (selection.constraint? .name).isSome
                && (selection.constraint? .owner).isNone <;> simp [nameless]

/-- A selection all of whose parameters must match selects metadata if there are constraints and
the metadata satisfies them. -/
theorem selects_iff_of_all {selection : Selection} {metadata : Metadata}
    (joined : selection.connective = .all) :
    selection.selects metadata = true ↔ selection.parameters.constraints ≠ [] ∧
      ∀ entry ∈ selection.parameters.constraints, metadata.satisfies entry = true := by
  rw [selects, joined, isSelected_all]

/-- Parameters select nothing exactly if none of them has a value. -/
theorem forall_isSelected_eq_false_iff {parameters : Metadata} (connective : Connective) :
    (∀ record : Metadata, record.isSelected parameters connective = false) ↔
      ¬ parameters.Filled := by
  constructor
  · intro none filled
    exact absurd ((isSelected_self_iff connective).2 filled) (by simp [none])
  · intro empty record
    refine Bool.eq_false_iff.2 fun selected => empty ?_
    cases connective with
    | any =>
        obtain ⟨key, value, held, filled, _⟩ := isSelected_any_iff.1 selected
        exact ⟨key, value, held, filled⟩
    | all => exact (isSelected_all_iff.1 selected).1

/-- Parameters without a common key select together what either of them selects, or what both
select if both ask for something. Where both must match, parameters that ask for nothing change
nothing, and less is selected than where one is enough. A record is selected by its own values if
there are any, and by nothing but its values under the keys of the parameters. A selection is
refused as empty if it selects no record, however its parameters are joined. -/
theorem joined_parameters_select :
    (∀ record parameters others : Metadata, parameters.Apart others →
      (record.isSelected (parameters.union others) .any = true ↔
        record.isSelected parameters .any = true ∨ record.isSelected others .any = true) ∧
      (parameters.Filled → others.Filled →
        (record.isSelected (parameters.union others) .all = true ↔
          record.isSelected parameters .all = true ∧ record.isSelected others .all = true)) ∧
      (¬ others.Filled →
        (record.isSelected (parameters.union others) .all = true ↔
          record.isSelected parameters .all = true))) ∧
    (∀ record parameters : Metadata, record.isSelected parameters .all = true →
      record.isSelected parameters .any = true) ∧
    (∀ (record : Metadata) (connective : Connective),
      record.isSelected record connective = true ↔ record.Filled) ∧
    (∀ (record other parameters : Metadata) (connective : Connective),
      (∀ key, parameters.has key = true → record.get? key = other.get? key) →
        record.isSelected parameters connective = other.isSelected parameters connective) ∧
    ∀ selection : Selection,
      (selection.validate = .error .emptySelection ↔
        ∀ connective record, ({ selection with connective } : Selection).selects record = false) ∧
      ∀ connective, selection.validate = .error .emptySelection ↔
        ∀ record, ({ selection with connective } : Selection).selects record = false := by
  have empty : ∀ (selection : Selection) (connective : Connective),
      selection.validate = .error .emptySelection ↔
        ∀ record, ({ selection with connective } : Selection).selects record = false :=
    fun selection connective =>
      validate_eq_emptySelection_iff.trans (forall_isSelected_eq_false_iff connective).symm
  refine ⟨fun record parameters others apart => ⟨?_, ?_, ?_⟩, fun _ _ => isSelected_any_of_all,
    fun _ connective => isSelected_self_iff connective,
    fun _ _ _ connective same => isSelected_congr connective same,
    fun selection => ⟨⟨fun refused connective => (empty selection connective).1 refused,
      fun none => (empty selection .any).2 (none .any)⟩, empty selection⟩⟩
  · rw [isSelected_union_any apart, Bool.or_eq_true]
  · intro filled othersFilled
    rw [isSelected_union_all apart filled othersFilled, Bool.and_eq_true]
  · intro silent
    rw [isSelected_union_all_of_not_filled apart silent]

/-- A report of one year, and parameters for reports, for another year and for a tag without a
value. The report is selected by the first two if one is enough, and by the first and the last
even if both must match. -/
theorem joined_parameters_select_report :
    let report := collect [("kind", "report"), ("year", "2023")]
    let marked := collect [("kind", "report"), ("tag", "new"), ("year", "2023")]
    let kind := collect [("kind", "report"), ("note", "")]
    let year := collect [("year", "2024")]
    let tag := collect [("tag", "")]
    report.isSelected (kind.union year) .any = true ∧
      report.isSelected (kind.union year) .all = false ∧
      report.isSelected (kind.union tag) .all = true ∧
      report.isSelected kind .any = true ∧ report.isSelected report .all = true ∧
      marked.isSelected (kind.union year) .any = true ∧
      ({ parameters := tag } : Selection).validate = .error .emptySelection ∧
      ∀ connective record,
        ({ parameters := tag, connective } : Selection).selects record = false := by
  intro report marked kind year tag
  obtain ⟨together, anyOfAll, own, unasked, refused⟩ := joined_parameters_select
  obtain ⟨either, both, _⟩ := together report kind year (by decide +kernel)
  obtain ⟨_, _, silent⟩ := together report kind tag (by decide +kernel)
  have kindOnly : report.isSelected kind .all = true := by decide +kernel
  have otherYear : report.isSelected year .all = false := by decide +kernel
  have selected : report.isSelected (kind.union year) .any = true :=
    either.2 (.inl (anyOfAll report kind kindOnly))
  have sameValues : ∀ entry ∈ (kind.union year).toList,
      report.get? entry.1 = marked.get? entry.1 := by decide +kernel
  have unmarked : report.isSelected (kind.union year) .any
      = marked.isSelected (kind.union year) .any := by
    refine unasked report marked _ .any fun key asked => ?_
    obtain ⟨value, held⟩ := has_iff.1 asked
    exact sameValues (key, value) ((OrderedMap.mem_entries_iff _ key value).2 held)
  have empty : ({ parameters := tag } : Selection).validate = .error .emptySelection := by
    decide +kernel
  refine ⟨selected, ?_, (silent (by decide +kernel)).2 kindOnly, anyOfAll report kind kindOnly,
    (own report .all).2 (by decide +kernel), unmarked ▸ selected, empty,
    (refused { parameters := tag }).1.1 empty⟩
  refine Bool.eq_false_iff.2 fun all => ?_
  have year := ((both (by decide +kernel) (by decide +kernel)).1 all).2
  exact absurd year (by simp [otherYear])

end Selection

end Depot
