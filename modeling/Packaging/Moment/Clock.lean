import Packaging.Timestamp

/-! Readings of a clock: a date and a time of the day, some of which may not be known yet. All times
are at offset zero.
-/

namespace Packaging.Moment

/-- A reading of a clock. Years are counted from 1900 and months from 0, and what is not known is
-1.
-/
structure Clock where
  year : Int := -1
  month : Int := -1
  day : Int := -1
  hour : Int := -1
  minute : Int := -1
  second : Int := -1
  weekday : Int := 0
deriving DecidableEq

/-- Days from the start of 1970 to the first day of a month. -/
def daysToMonth (year : Int) (month : Int) : Int :=
  let marchYear := if month < 2 then year - 1 else year
  let marchMonth := (month + 10) % 12
  let yearOfCycle := marchYear % 400
  marchYear / 400 * Date.daysOfCycle + yearOfCycle * 365 + yearOfCycle / 4 - yearOfCycle / 100
    + (153 * marchMonth + 2) / 5 - Date.daysToEpoch

namespace Clock

/-- The reading at a time in seconds since the start of 1970. -/
def ofSeconds (time : Int) : Clock :=
  let days := time / 86400
  let date := Date.ofDays days
  let second := time % 86400
  ⟨date.year - 1900, date.month - 1, date.day, second / 3600, second / 60 % 60, second % 60,
    (days + 4) % 7⟩

/-- The time of a reading. Days beyond a month and hours beyond a day are counted on. -/
def toSeconds (clock : Clock) : Int :=
  (daysToMonth (clock.year + 1900) clock.month + clock.day - 1) * 86400
    + clock.hour * 3600 + clock.minute * 60 + clock.second

/-- The time of a reading that is known, from 1970 to 2099. -/
def seconds? (clock : Clock) : Option Int :=
  if clock.year < 70 ∨ 199 < clock.year ∨ clock.month < 0 ∨ 11 < clock.month
      ∨ clock.hour < 0 ∨ clock.minute < 0 ∨ clock.second < 0 then none
  else some clock.toSeconds

/-- Whether nothing but the day of the week is known. -/
def isBlank (clock : Clock) : Bool :=
  [clock.year, clock.month, clock.day, clock.hour, clock.minute, clock.second].all (· < 0)

/-- A reading with the date of another one where its own is not known, some seconds earlier. A month
that is still to come is one of the year before.
-/
def complete (clock now : Clock) (secondsEarlier : Int) : Clock :=
  let month := if clock.month < 0 then now.month else clock.month
  let year :=
    if 0 ≤ clock.year then clock.year
    else if now.month < month then now.year - 1 else now.year
  let day := if clock.day < 0 then now.day else clock.day
  ofSeconds ({ clock with year := year, month := month, day := day }.toSeconds - secondsEarlier)

end Clock

end Packaging.Moment
