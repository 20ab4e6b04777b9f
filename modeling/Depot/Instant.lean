/-!
# Points in time

A point in time as whole seconds since the start of 1970 in universal time and
the nanoseconds of the next second, and its text in the internet date-time
format. The calendar is the proleptic Gregorian one.
-/

namespace Depot

/-- A point in time in universal time. -/
structure Instant where
  /-- Whole seconds since the start of 1970. -/
  seconds : Int
  /-- Nanoseconds of the running second. -/
  nanoseconds : Nat := 0
deriving DecidableEq, Repr, Inhabited

namespace Instant

/-- A day of the calendar. -/
structure Date where
  /-- The year, with a year zero. -/
  year : Int
  month : Nat
  day : Nat
deriving DecidableEq, Repr

/-- The day that is `count` days after the first day of 1970. Years are counted
from March, in eras of 400 years, so that leap days end a year. -/
def dateOfDay (count : Int) : Date :=
  let shifted := count + 719468
  let era := shifted.fdiv 146097
  let dayOfEra := (shifted.fmod 146097).toNat
  let yearOfEra :=
    (dayOfEra - dayOfEra / 1460 + dayOfEra / 36524 - dayOfEra / 146096) / 365
  let dayOfYear := dayOfEra - (365 * yearOfEra + yearOfEra / 4 - yearOfEra / 100)
  let monthFromMarch := (5 * dayOfYear + 2) / 153
  let day := dayOfYear - (153 * monthFromMarch + 2) / 5 + 1
  let month := if monthFromMarch < 10 then monthFromMarch + 3 else monthFromMarch - 9
  let year := yearOfEra + era * 400 + (if month ≤ 2 then 1 else 0)
  ⟨year, month, day⟩

/-- A number in decimal with at least `width` digits. -/
def padded (width number : Nat) : String :=
  let digits := Nat.toDigits 10 number
  String.ofList (List.replicate (width - digits.length) '0' ++ digits)

/-- A year: four digits, or a sign and at least four digits outside 0 to 9999. -/
def yearText (year : Int) : String :=
  if year < 0 then "-" ++ padded 4 year.natAbs
  else if year ≤ 9999 then padded 4 year.toNat
  else "+" ++ padded 4 year.toNat

/-- The fraction of a second: nothing, or a point and the fewest of three, six
or nine digits that give it exactly. -/
def fractionText (nanoseconds : Nat) : String :=
  if nanoseconds = 0 then ""
  else if nanoseconds % 1000000 = 0 then "." ++ padded 3 (nanoseconds / 1000000)
  else if nanoseconds % 1000 = 0 then "." ++ padded 6 (nanoseconds / 1000)
  else "." ++ padded 9 nanoseconds

/-- The date-time text, with the offset of universal time. -/
def toText (instant : Instant) : String :=
  let date := dateOfDay (instant.seconds.fdiv 86400)
  let second := (instant.seconds.fmod 86400).toNat
  let month := padded 2 date.month
  let day := padded 2 date.day
  let hour := padded 2 (second / 3600)
  let minute := padded 2 (second / 60 % 60)
  let rest := padded 2 (second % 60) ++ fractionText instant.nanoseconds
  s!"{yearText date.year}-{month}-{day}T{hour}:{minute}:{rest}+00:00"

end Instant

end Depot
