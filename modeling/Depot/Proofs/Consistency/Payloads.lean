import Depot.Proofs.Consistency.Records

/-!
# Content under partial writes

Content is written before the record it belongs to and removed before it, so there is
content without a record and there are records without content. What is never left is a
record beside the content of another entry: what is stored of an identity is untorn if its
record, and its content as far as it has any, are those of one entry. It stays so whatever
is removed, and when other entries are written.
-/

namespace Depot.Contents

variable {before after : Contents} {identity : Uuid} {entry : Entry} {entries : List Entry}
  {count : Nat} {mode : WriteMode}

/-- The content in the one contents is among that in the other. -/
def PayloadsWithin (after before : Contents) : Prop :=
  ∀ key payload, after.payloads.get? key = some payload → before.payloads.get? key = some payload

/-- A deletion adds no content. -/
theorem Removal.payloadsWithin (removal : before.Removal mode identity after) :
    after.PayloadsWithin before := by
  intro key payload found
  cases removal with
  | halfway interrupted =>
      cases interrupted with
      | unnamed => rwa [payloads_withoutName] at found
      | emptied =>
          simp only [withoutPayload, payloads_withoutName] at found
          exact (OrderedMap.get?_of_get?_erase found).2
  | whole =>
      simp only [without, withoutRecord, withoutPayload, payloads_withoutName] at found
      exact (OrderedMap.get?_of_get?_erase found).2

theorem Removals.payloadsWithin (removals : before.Removals mode after) :
    after.PayloadsWithin before := by
  induction removals with
  | refl => exact fun _ _ found => found
  | tail _ removal inductionHypothesis =>
      obtain ⟨_, removal⟩ := removal
      exact fun key payload found =>
        inductionHypothesis key payload (removal.payloadsWithin key payload found)

/-- A reconciliation adds no content. -/
theorem payloadsWithin_reconciled (contents : Contents) :
    (Reconciliation.reconciled contents).PayloadsWithin contents := by
  intro key payload found
  simp only [Reconciliation.reconciled, OrderedMap.get?_filter, Option.filter_eq_some_iff] at found
  exact found.1

/-- Indexing entries writes no content. -/
theorem Indexed.payloads_eq (indexed : before.Indexed entries count after) :
    after.payloads = before.payloads := by
  induction indexed with
  | stopped => rfl
  | named => rfl
  | next _ _ inductionHypothesis => exact inductionHypothesis

/-- Entries of different identities that are indexed completely get their records. -/
theorem Indexed.get?_records_of_mem (indexed : before.Indexed entries count after)
    (distinct : (entries.map Entry.identity).Nodup) (member : entry ∈ entries.take count) :
    after.records.get? entry.key = some entry.record := by
  induction indexed with
  | stopped => exact absurd member (by simp)
  | named => exact absurd member (by simp)
  | @next before after first rest count free indexed inductionHypothesis =>
      obtain ⟨once, distinctRest⟩ := List.nodup_cons.1 distinct
      rw [List.take_succ_cons] at member
      rcases List.mem_cons.1 member with rfl | later
      · have others : ∀ other ∈ rest.take count, other.key ≠ entry.key := by
          intro other taken same
          exact once (List.mem_map.2 ⟨other, List.mem_of_mem_take taken, Uuid.key_injective same⟩)
        exact (indexed.get?_records others).trans (OrderedMap.get?_insert_self _ _ _)
      · exact inductionHypothesis distinctRest later

/-- The record of an entry's identity is the entry's, and so is the content, if there is any. -/
structure Untorn (contents : Contents) (entry : Entry) : Prop where
  record : contents.records.get? entry.key = some entry.record
  payload : ∀ payload, contents.payloads.get? entry.key = some payload → payload = entry.payload

/-- What is stored of an identity stays untorn when records and content are removed, as long as
there is a record. -/
theorem Untorn.within {record : Bytes} (untorn : before.Untorn entry)
    (records : after.RecordsWithin before) (payloads : after.PayloadsWithin before)
    (found : after.records.get? entry.key = some record) : after.Untorn entry where
  record := by
    have same := (records _ _ found).symm.trans untorn.record
    rwa [Option.some.inj same] at found
  payload payload paid := untorn.payload payload (payloads _ _ paid)

/-- What is stored of an identity stays untorn when entries of other identities are written. -/
theorem Untorn.indexed (untorn : before.Untorn entry)
    (others : ∀ other ∈ entries, other.key ≠ entry.key)
    (indexed : (before.withPayloads entries).Indexed entries count after) : after.Untorn entry where
  record := by
    rw [indexed.get?_records fun other member => others other (List.mem_of_mem_take member),
      records_withPayloads]
    exact untorn.record
  payload payload paid := by
    rw [indexed.payloads_eq, get?_payloads_withPayloads_of_ne others] at paid
    exact untorn.payload payload paid

/-- What is stored of the identity of an entry that was written completely is untorn. -/
theorem Indexed.untorn (indexed : (before.withPayloads entries).Indexed entries count after)
    (distinct : (entries.map Entry.identity).Nodup) (member : entry ∈ entries.take count) :
    after.Untorn entry where
  record := indexed.get?_records_of_mem distinct member
  payload payload paid := by
    obtain ⟨front, back, rfl⟩ := List.append_of_mem (List.mem_of_mem_take member)
    rw [List.map_append, List.map_cons] at distinct
    obtain ⟨once, _⟩ := List.nodup_cons.1 (List.nodup_middle.1 distinct)
    have others : ∀ other ∈ back, other.identity ≠ entry.identity := fun other later same =>
      once (List.mem_append_right _ (List.mem_map.2 ⟨other, later, same⟩))
    rw [indexed.payloads_eq, get?_payloads_withPayloads others] at paid
    exact (Option.some.inj paid).symm

end Depot.Contents
