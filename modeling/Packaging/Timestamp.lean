import Packaging.Text.Digits

/-! Points in time and their text. A point is counted in seconds since the start of 1970, and its
text gives the date of the proleptic Gregorian calendar and the time of the day at offset zero.
-/

namespace Packaging

structure Date where
  year : Int
  month : Nat
  day : Nat
deriving DecidableEq

namespace Date

/-- Days from the first of March of the year 0 to the start of 1970. Years counted from March end
with the leap day.
-/
def daysToEpoch : Int := 719468

/-- Days of the 400 years after which the calendar repeats. -/
def daysOfCycle : Int := 146097

/-- The date of a day counted from the start of 1970. The day of the cycle gives the year by
leaving out the leap days before it, and the day of the year gives the month by months of 153 days
in five.
-/
def ofDays (days : Int) : Date :=
  let shifted := days + daysToEpoch
  let cycle := shifted / daysOfCycle
  let dayOfCycle := (shifted % daysOfCycle).toNat
  let yearOfCycle :=
    (dayOfCycle - dayOfCycle / 1460 + dayOfCycle / 36524 - dayOfCycle / 146096) / 365
  let dayOfYear := dayOfCycle - (365 * yearOfCycle + yearOfCycle / 4 - yearOfCycle / 100)
  let marchMonth := (5 * dayOfYear + 2) / 153
  let day := dayOfYear - (153 * marchMonth + 2) / 5 + 1
  let month := if marchMonth < 10 then marchMonth + 3 else marchMonth - 9
  let year := cycle * 400 + yearOfCycle
  ⟨if month ≤ 2 then year + 1 else year, month, day⟩

end Date

/-- A point in time: whole seconds since the start of 1970 and nanoseconds after them. A second
that ends a minute may have up to two seconds of nanoseconds, which is a leap second.
-/
structure Timestamp where
  seconds : Int
  nanoseconds : Nat
deriving DecidableEq

namespace Timestamp

/-- The start of 1970. -/
def epoch : Timestamp := ⟨0, 0⟩

/-- The first second that has a date. -/
def firstSecond : Int := -8334601228800

/-- The last second that has a date. -/
def lastSecond : Int := 8210266876799

/-- The point of whole seconds and nanoseconds since the start of 1970, if it has a date. Only the
last second of a minute may have more than a second of nanoseconds.
-/
def ofUnix? (seconds : Int) (nanoseconds : Nat) : Option Timestamp :=
  if seconds < firstSecond ∨ lastSecond < seconds ∨ 2000000000 ≤ nanoseconds then none
  else if 1000000000 ≤ nanoseconds ∧ seconds % 60 ≠ 59 then none
  else some ⟨seconds, nanoseconds⟩

/-- The decimal digits of a number, with zeros before them up to a width. -/
def padded (width number : Nat) : String :=
  String.ofList (Digits.padded 10 width number)

/-- A year in four digits, with a sign where four digits without one do not hold it. -/
def yearText (year : Int) : String :=
  if year < 0 then "-" ++ padded 4 year.natAbs
  else if year ≤ 9999 then padded 4 year.natAbs
  else "+" ++ padded 4 year.natAbs

/-- The fraction of a second in three, six or nine digits, the fewest that lose nothing, or nothing
for a whole second.
-/
def fractionText (nanoseconds : Nat) : String :=
  if nanoseconds = 0 then ""
  else if nanoseconds % 1000000 = 0 then "." ++ padded 3 (nanoseconds / 1000000)
  else if nanoseconds % 1000 = 0 then "." ++ padded 6 (nanoseconds / 1000)
  else "." ++ padded 9 nanoseconds

/-- The date and time of a point as text, in the form of RFC 3339. -/
def text (point : Timestamp) : String :=
  let date := Date.ofDays (point.seconds / 86400)
  let time := (point.seconds % 86400).toNat
  let leap := point.nanoseconds / 1000000000
  yearText date.year ++ "-" ++ padded 2 date.month ++ "-" ++ padded 2 date.day
    ++ "T" ++ padded 2 (time / 3600) ++ ":" ++ padded 2 (time / 60 % 60)
    ++ ":" ++ padded 2 (time % 60 + leap)
    ++ fractionText (point.nanoseconds % 1000000000) ++ "Z"

end Timestamp

end Packaging
