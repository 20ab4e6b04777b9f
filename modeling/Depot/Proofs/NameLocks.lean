import Depot.NameLocks
import Depot.Proofs.OrderedMap
import Mathlib.Data.List.Nodup
import Mathlib.Logic.Relation

/-!
# Name locks that are taken in order

Each lock is taken at most once by the keys of an operation, and all operations
take the locks they share in the same order. Operations that arrive in any
number, at any time and with any keys therefore never wait for each other in a
circle: a party that waits for a lock waits for one that wants only higher ones,
and the locks are finitely many.
-/

namespace Depot

namespace NameLocks

variable {locks : NameLocks}

/-! ## What is taken -/

/-- The locks of several keys are taken in ascending order. -/
theorem acquisition_ascending (locks : NameLocks) (keys : List Bytes) :
    (locks.acquisition keys).Pairwise (· < ·) :=
  List.pairwise_map.2 <| (OrderedMap.ascending _).imp fun below => Nat.compare_eq_lt.1 below

/-- A key's lock is one of the locks there are. -/
theorem stripe_lt (locks : NameLocks) (key : Bytes) : locks.stripe key < locks.stripes :=
  Nat.mod_lt _ locks.stripes_pos

/-- The locks that are taken are those of the keys. -/
theorem mem_acquisition_iff {keys : List Bytes} {stripe : Nat} :
    stripe ∈ locks.acquisition keys ↔ ∃ key ∈ keys, locks.stripe key = stripe := by
  rw [acquisition, OrderedMap.mem_keys_iff, OrderedMap.ofList,
    OrderedMap.get?_foldl_insert_last _ Prod.fst Prod.snd]
  simp

/-- Only locks that there are get taken. -/
theorem lt_of_mem_acquisition {keys : List Bytes} {stripe : Nat}
    (taken : stripe ∈ locks.acquisition keys) : stripe < locks.stripes := by
  obtain ⟨key, -, rfl⟩ := mem_acquisition_iff.1 taken
  exact locks.stripe_lt key

/-- Two operations take the locks they have in common in the same order. -/
theorem common_acquisition (locks : NameLocks) (first second : List Bytes) :
    (locks.acquisition first).filter (· ∈ locks.acquisition second)
      = (locks.acquisition second).filter (· ∈ locks.acquisition first) := by
  refine ((locks.acquisition_ascending first).filter _).eq_of_mem_iff
    ((locks.acquisition_ascending second).filter _) fun stripe => ?_
  simp only [List.mem_filter, decide_eq_true_eq]
  exact and_comm

/-! ## Parties that take and release locks -/

/-- An operation amid others: the keys it locks, the locks it holds and those it still wants. -/
structure Party where
  keys : List Bytes
  /-- The locks it holds, in the order in which it took them. -/
  held : List Nat
  /-- The locks it has yet to take, the next one first. -/
  wanted : List Nat
  deriving Repr, DecidableEq

namespace Party

/-- Whether a party has taken all its locks and released them again. -/
def IsDone (party : Party) : Prop := party.held = [] ∧ party.wanted = []

/-- A party once it is done. -/
def done (party : Party) : Party := ⟨party.keys, [], []⟩

/-- What a party has yet to do: take and release what it wants, release what it holds. -/
def pending (party : Party) : Nat := 2 * party.wanted.length + party.held.length

/-- A party that is done is as it will be. -/
theorem IsDone.done_eq {party : Party} (finished : party.IsDone) : party.done = party := by
  obtain ⟨keys, held, wanted⟩ := party
  obtain ⟨rfl, rfl⟩ := finished
  rfl

end Party

/-- A party that arrives with some keys holds nothing and wants the locks of its keys. -/
def arrival (locks : NameLocks) (keys : List Bytes) : Party := ⟨keys, [], locks.acquisition keys⟩

/-- One step of one of several parties. A lock is taken only while nobody holds it, not even the
party that takes it; nothing is released before everything was taken. -/
inductive Advances : List Party → List Party → Prop where
  | take {before after : List Party} {keys : List Bytes} {held rest : List Nat} {stripe : Nat}
      (free : ∀ party ∈ before ++ ⟨keys, held, stripe :: rest⟩ :: after, stripe ∉ party.held) :
      Advances (before ++ ⟨keys, held, stripe :: rest⟩ :: after)
        (before ++ ⟨keys, held ++ [stripe], rest⟩ :: after)
  | release {before after : List Party} {keys : List Bytes} {held : List Nat} {stripe : Nat} :
      Advances (before ++ ⟨keys, stripe :: held, []⟩ :: after)
        (before ++ ⟨keys, held, []⟩ :: after)

/-- The parties that can be at work at a time: they arrive whenever they like, and each takes its
steps when its turn comes. -/
inductive Reached (locks : NameLocks) : List Party → Prop where
  | start : Reached locks []
  | arrive {parties : List Party} (reached : Reached locks parties) (keys : List Bytes) :
      Reached locks (parties ++ [locks.arrival keys])
  | advance {parties next : List Party} (reached : Reached locks parties)
      (step : Advances parties next) : Reached locks next

/-- Whether one party waits for another: the lock it wants next is held by the other. -/
def Waits (parties : List Party) (waiting holding : Party) : Prop :=
  waiting ∈ parties ∧ holding ∈ parties ∧
    ∃ stripe rest, waiting.wanted = stripe :: rest ∧ stripe ∈ holding.held

/-! ## What every step keeps -/

/-- What holds of the parties at every time. -/
structure Orderly (locks : NameLocks) (parties : List Party) : Prop where
  inOrder : ∀ party ∈ parties, party.held ++ party.wanted <:+ locks.acquisition party.keys
  exclusive : (parties.flatMap Party.held).Nodup

/-- A step of one of the parties keeps them in order. -/
theorem Orderly.advance {parties next : List Party} (orderly : Orderly locks parties)
    (step : Advances parties next) : Orderly locks next := by
  have inOrder := orderly.inOrder
  have exclusive := orderly.exclusive
  cases step with
  | @take before after keys held rest stripe free =>
    simp only [List.forall_mem_append, List.forall_mem_cons] at inOrder free
    obtain ⟨ahead, here, behind⟩ := inOrder
    refine ⟨?_, ?_⟩
    · simp only [List.forall_mem_append, List.forall_mem_cons, List.append_assoc]
      exact ⟨ahead, here, behind⟩
    · have fresh :
          stripe ∉ (before ++ ⟨keys, held, stripe :: rest⟩ :: after).flatMap Party.held := by
        simp only [List.mem_flatMap, List.mem_append, List.mem_cons]
        rintro ⟨party, among | rfl | among, holds⟩
        · exact free.1 party among holds
        · exact free.2.1 holds
        · exact free.2.2 party among holds
      refine (List.Perm.nodup_iff ?_).1 (List.nodup_cons.2 ⟨fresh, exclusive⟩)
      simp only [List.flatMap_append, List.flatMap_cons, List.append_assoc, List.singleton_append]
      rw [← List.append_assoc, ← List.append_assoc]
      exact List.perm_middle.symm
  | @release before after keys held stripe =>
    simp only [List.forall_mem_append, List.forall_mem_cons] at inOrder
    obtain ⟨ahead, here, behind⟩ := inOrder
    refine ⟨?_, ?_⟩
    · simp only [List.forall_mem_append, List.forall_mem_cons]
      exact ⟨ahead, (List.suffix_cons stripe _).trans here, behind⟩
    · simp only [List.flatMap_append, List.flatMap_cons, List.cons_append] at exclusive ⊢
      exact (List.nodup_cons.1 (List.perm_middle.nodup_iff.1 exclusive)).2

/-- Whatever arrives and whoever goes first, the parties are in order. -/
theorem Reached.orderly {parties : List Party} (reached : Reached locks parties) :
    Orderly locks parties := by
  induction reached with
  | start => exact ⟨by simp, .nil⟩
  | @arrive parties _ keys inductionHypothesis =>
    refine ⟨?_, ?_⟩
    · simp only [List.forall_mem_append, List.forall_mem_singleton]
      exact ⟨inductionHypothesis.inOrder, List.suffix_refl _⟩
    · simpa [arrival] using inductionHypothesis.exclusive
  | advance _ step inductionHypothesis => exact inductionHypothesis.advance step

variable {parties : List Party}

/-- Every lock a party holds comes before all it wants. -/
theorem Orderly.held_lt_wanted (orderly : Orderly locks parties) {party : Party}
    (among : party ∈ parties) {held wanted : Nat} (holds : held ∈ party.held)
    (wants : wanted ∈ party.wanted) : held < wanted :=
  (List.pairwise_append.1 ((locks.acquisition_ascending party.keys).sublist
    (orderly.inOrder party among).sublist)).2.2 held holds wanted wants

/-- The locks a party wants are locks there are. -/
theorem Orderly.wanted_lt (orderly : Orderly locks parties) {party : Party}
    (among : party ∈ parties) {stripe : Nat} (wants : stripe ∈ party.wanted) :
    stripe < locks.stripes :=
  lt_of_mem_acquisition
    ((orderly.inOrder party among).subset (List.mem_append_right party.held wants))

/-! ## Nobody waits for ever -/

/-- Whoever is waited for, directly or through others, holds a lock no lower than the one the
first of them wants. -/
theorem Orderly.held_of_waits (orderly : Orderly locks parties) {first last : Party}
    (waits : Relation.TransGen (Waits parties) first last) :
    first ∈ parties ∧
      ∃ stripe rest, first.wanted = stripe :: rest ∧ ∃ held ∈ last.held, stripe ≤ held := by
  induction waits with
  | single waits =>
    obtain ⟨among, -, stripe, rest, wants, holds⟩ := waits
    exact ⟨among, stripe, rest, wants, stripe, holds, le_rfl⟩
  | tail _ waits inductionHypothesis =>
    obtain ⟨among, stripe, rest, wants, held, holds, lower⟩ := inductionHypothesis
    obtain ⟨amongNext, -, next, restNext, wantsNext, holdsNext⟩ := waits
    have higher : held < next :=
      orderly.held_lt_wanted amongNext holds (wantsNext ▸ List.mem_cons_self)
    exact ⟨among, stripe, rest, wants, next, holdsNext, lower.trans higher.le⟩

/-- There is no circle of waiting. -/
theorem Orderly.acyclic (orderly : Orderly locks parties) (party : Party) :
    ¬ Relation.TransGen (Waits parties) party party := by
  intro waits
  obtain ⟨among, stripe, rest, wants, held, holds, lower⟩ := orderly.held_of_waits waits
  have higher : held < stripe := orderly.held_lt_wanted among holds (wants ▸ List.mem_cons_self)
  exact absurd lower higher.not_ge

/-- A party that has all its locks and holds one can release it. -/
theorem advances_of_complete {party : Party} (among : party ∈ parties) (holds : party.held ≠ [])
    (complete : party.wanted = []) : ∃ next, Advances parties next := by
  obtain ⟨before, after, rfl⟩ := List.append_of_mem among
  obtain ⟨keys, held, wanted⟩ := party
  obtain rfl : wanted = [] := complete
  obtain ⟨stripe, rest, rfl⟩ := List.exists_cons_of_ne_nil holds
  exact ⟨_, .release⟩

/-- While a party wants a lock, some party can take a step. -/
theorem Orderly.advances_of_wants (orderly : Orderly locks parties) {party : Party}
    (among : party ∈ parties) {stripe : Nat} {rest : List Nat}
    (wants : party.wanted = stripe :: rest) : ∃ next, Advances parties next := by
  -- Whoever holds the lock wants only higher ones, so this ends at the highest lock of all.
  induction left : locks.stripes - stripe using Nat.strong_induction_on
    generalizing party stripe rest with
  | _ left inductionHypothesis =>
    by_cases free : ∀ other ∈ parties, stripe ∉ other.held
    · obtain ⟨before, after, rfl⟩ := List.append_of_mem among
      obtain ⟨keys, held, wanted⟩ := party
      obtain rfl : wanted = stripe :: rest := wants
      exact ⟨_, .take free⟩
    · push Not at free
      obtain ⟨holder, amongToo, holds⟩ := free
      cases further : holder.wanted with
      | nil => exact advances_of_complete amongToo (List.ne_nil_of_mem holds) further
      | cons next later =>
        have wantsNext : next ∈ holder.wanted := further ▸ List.mem_cons_self
        have higher : stripe < next := orderly.held_lt_wanted amongToo holds wantsNext
        have within : next < locks.stripes := orderly.wanted_lt amongToo wantsNext
        exact inductionHypothesis (locks.stripes - next) (by omega) amongToo further rfl

/-- Unless all parties are done, one of them can take a step. -/
theorem Orderly.progress (orderly : Orderly locks parties) :
    (∀ party ∈ parties, party.IsDone) ∨ ∃ next, Advances parties next := by
  by_cases finished : ∀ party ∈ parties, party.IsDone
  · exact .inl finished
  · push Not at finished
    obtain ⟨party, among, unfinished⟩ := finished
    cases wants : party.wanted with
    | nil => exact .inr (advances_of_complete among (fun empty => unfinished ⟨empty, wants⟩) wants)
    | cons stripe rest => exact .inr (orderly.advances_of_wants among wants)

/-- Each step leaves less to do. -/
theorem Advances.pending_lt {next : List Party} (step : Advances parties next) :
    (next.map Party.pending).sum < (parties.map Party.pending).sum := by
  cases step with
  | take _ =>
    simp only [List.map_append, List.map_cons, List.sum_append, List.sum_cons, Party.pending,
      List.length_append, List.length_cons, List.length_nil]
    omega
  | release =>
    simp only [List.map_append, List.map_cons, List.sum_append, List.sum_cons, Party.pending,
      List.length_cons]
    omega

/-- A step leaves what the parties come to. -/
theorem Advances.map_done {next : List Party} (step : Advances parties next) :
    next.map Party.done = parties.map Party.done := by
  cases step <;> simp [Party.done]

/-- Without new arrivals no sequence of steps goes on for ever. -/
theorem advances_wellFounded : WellFounded fun later earlier => Advances earlier later :=
  Subrelation.wf (fun step => step.pending_lt)
    (measure fun parties : List Party => (parties.map Party.pending).sum).wf

/-- Parties in order can go on until each has taken and released all its locks. -/
theorem Orderly.ends (orderly : Orderly locks parties) :
    Relation.ReflTransGen Advances parties (parties.map Party.done) := by
  induction parties using advances_wellFounded.induction with
  | _ parties inductionHypothesis =>
    rcases orderly.progress with finished | ⟨next, step⟩
    · have settled : parties.map Party.done = parties :=
        (List.map_congr_left fun party among => (finished party among).done_eq).trans
          (List.map_id' parties)
      rw [settled]
    · have ends := inductionHypothesis next step (orderly.advance step)
      rw [step.map_done] at ends
      exact .head step ends

/-- Parties that hold the locks of all their keys have no key in common. -/
theorem Orderly.apart (orderly : Orderly locks parties) :
    parties.Pairwise fun first second =>
      first.held = locks.acquisition first.keys → second.held = locks.acquisition second.keys →
        first.keys.Disjoint second.keys := by
  refine (List.nodup_flatMap.1 orderly.exclusive).2.imp ?_
  intro first second disjoint whole wholeToo key among amongToo
  refine disjoint (a := locks.stripe key) ?_ ?_
  · exact whole ▸ mem_acquisition_iff.2 ⟨key, among, rfl⟩
  · exact wholeToo ▸ mem_acquisition_iff.2 ⟨key, amongToo, rfl⟩

/-! ## The whole discipline -/

/-- How the locks of several keys are taken. -/
structure TakenInOrder (locks : NameLocks) (keys : List Bytes) : Prop where
  ascending : (locks.acquisition keys).Pairwise (· < ·)
  once : (locks.acquisition keys).Nodup
  within : ∀ stripe ∈ locks.acquisition keys, stripe < locks.stripes
  ofKeys : ∀ stripe, stripe ∈ locks.acquisition keys ↔ ∃ key ∈ keys, locks.stripe key = stripe
  covers : ∀ key ∈ keys,
    locks.acquisition [key] = [locks.stripe key] ∧ locks.stripe key ∈ locks.acquisition keys

/-- What rules out a deadlock of the parties that are at work. -/
structure NeverStuck (locks : NameLocks) (parties : List Party) : Prop where
  exclusive : (parties.flatMap Party.held).Nodup
  apart : parties.Pairwise fun first second =>
    first.held = locks.acquisition first.keys → second.held = locks.acquisition second.keys →
      first.keys.Disjoint second.keys
  acyclic : ∀ party, ¬ Relation.TransGen (Waits parties) party party
  progress : (∀ party ∈ parties, party.IsDone) ∨ ∃ next, Advances parties next
  /-- Without new arrivals they cannot go on for ever, whoever goes first. -/
  terminates : Acc (fun later earlier => Advances earlier later) parties
  ends : Relation.ReflTransGen Advances parties (parties.map Party.done)

/-- Whatever the number of locks, the hash and the keys, the locks of several keys are taken in
ascending order, once each and for all the keys, any two operations take the locks they share in
the same order, and operations that take their locks in this way are never stuck. -/
theorem taken_in_order (locks : NameLocks) :
    (∀ keys, TakenInOrder locks keys) ∧
    (∀ first second,
      (locks.acquisition first).filter (· ∈ locks.acquisition second)
        = (locks.acquisition second).filter (· ∈ locks.acquisition first)) ∧
    ∀ parties, Reached locks parties → NeverStuck locks parties := by
  refine ⟨fun keys => ?_, locks.common_acquisition, fun parties reached => ?_⟩
  · have ascending := locks.acquisition_ascending keys
    refine ⟨ascending, ascending.imp Nat.ne_of_lt, fun _ => lt_of_mem_acquisition,
      fun _ => mem_acquisition_iff, fun key among => ⟨rfl, ?_⟩⟩
    exact mem_acquisition_iff.2 ⟨key, among, rfl⟩
  · have orderly := reached.orderly
    exact ⟨orderly.exclusive, orderly.apart, orderly.acyclic, orderly.progress,
      advances_wellFounded.apply parties, orderly.ends⟩

/-- Two locks, which tell keys apart by whether their lengths are even. -/
def twoLocks : NameLocks where
  stripes := 2
  hash := List.length

/-- Of two operations that name the same keys in opposite orders, the second waits while the first
holds the lower lock, and both come to their end. -/
theorem taken_in_order_opposite :
    twoLocks.acquisition [[1], [2, 3], [4], [1]] = [0, 1] ∧
    TakenInOrder twoLocks [[1], [2, 3], [4], [1]] ∧
    ∃ parties waiting holding, Reached twoLocks parties ∧ Waits parties waiting holding ∧
      holding.keys = [[1], [2, 3]] ∧ waiting.keys = [[2, 3], [1]] ∧
      NeverStuck twoLocks parties := by
  have arrived : Reached twoLocks [⟨[[1], [2, 3]], [], [0, 1]⟩, ⟨[[2, 3], [1]], [], [0, 1]⟩] :=
    .arrive (.arrive .start [[1], [2, 3]]) [[2, 3], [1]]
  have begun : Reached twoLocks [⟨[[1], [2, 3]], [0], [1]⟩, ⟨[[2, 3], [1]], [], [0, 1]⟩] :=
    .advance arrived (show Advances ([] ++ _ :: _) ([] ++ _ :: _) from .take (by decide))
  refine ⟨by decide, (taken_in_order twoLocks).1 _, _, ⟨[[2, 3], [1]], [], [0, 1]⟩,
    ⟨[[1], [2, 3]], [0], [1]⟩, begun, ?_, rfl, rfl, (taken_in_order twoLocks).2.2 _ begun⟩
  exact ⟨by decide, by decide, 0, [1], rfl, by decide⟩

end NameLocks

end Depot
