import Depot.Text.Utf8

/-!
# Sinks

Something that takes bytes a portion at a time and may stop taking them. How a
sink answers is a function of how many bytes it has received and what it is
offered. Since every portion that it takes has at least one byte, that leaves it
free to answer differently every time.
-/

namespace Depot

/-- A taker of bytes. -/
structure Sink where
  /-- How many of the offered bytes are taken once so many are received, or why none
  are. All of them are taken if the number is greater than theirs. -/
  answer : (received : Nat) → (offered : Bytes) → Except String Nat
  flush : Except String Unit

namespace Sink

/-- A sink that takes everything. -/
def all : Sink := ⟨fun _ offered => .ok offered.length, .ok ()⟩

/-- What a sink does once it is full. -/
inductive WhenFull where
  | fails
  | takesNothing
deriving DecidableEq, Repr

/-- A sink that takes at most `portion` bytes at a time and `limit` bytes in all. -/
def bounded (portion limit : Option Nat) (whenFull : WhenFull) (flush : Except String Unit) :
    Sink where
  answer received offered :=
    match limit with
    | none => .ok (portion.getD offered.length)
    | some limit =>
      if limit ≤ received then
        match whenFull with
        | .fails => .error "sink full"
        | .takesNothing => .ok 0
      else
        let room := limit - received
        .ok (min (portion.getD room) room)
  flush := flush

/-- Why bytes are given up when a sink takes none of them. -/
def stalled : String := "failed to write whole buffer"

/-- Offers `pending` to a sink that has received so many bytes, until all of it is
taken or the sink stops; gives the outcome and what the sink has taken of it. -/
def pour (sink : Sink) (received : Nat) : (pending : Bytes) → Except String Unit × Bytes
  | [] => (.ok (), [])
  | first :: rest =>
    match sink.answer received (first :: rest) with
    | .error reason => (.error reason, [])
    | .ok 0 => (.error stalled, [])
    | .ok (taken + 1) =>
      let portion := first :: rest.take taken
      let (outcome, later) := sink.pour (received + portion.length) (rest.drop taken)
      (outcome, portion ++ later)
termination_by pending => pending.length
decreasing_by simp only [List.length_drop, List.length_cons]; omega

end Sink

end Depot
