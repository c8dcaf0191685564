import Packaging.Moment.Clock
import Packaging.Text.Integer

/-! Words and numbers in texts of dates. A word may be shortened, and a group of numbers is a date
or a time of the day by the marks between them.
-/

namespace Packaging.Moment

def monthNames : List String :=
  ["January", "February", "March", "April", "May", "June", "July", "August", "September",
    "October", "November", "December"]

def weekdayNames : List String :=
  ["Sundays", "Mondays", "Tuesdays", "Wednesdays", "Thursdays", "Fridays", "Saturdays"]

/-- The names of time zones with their hours, one more for those in summer time. -/
def zones : List (String × Int) :=
  [("IDLW", -12), ("NT", -11), ("CAT", -10), ("HST", -10), ("HDT", -9), ("YST", -9), ("YDT", -8),
    ("PST", -8), ("PDT", -7), ("MST", -7), ("MDT", -6), ("CST", -6), ("CDT", -5), ("EST", -5),
    ("EDT", -4), ("AST", -3), ("ADT", -2), ("WAT", -1), ("GMT", 0), ("UTC", 0), ("Z", 0),
    ("WET", 0), ("BST", 1), ("MET", 1), ("MEWT", 1), ("MEST", 2), ("CET", 1), ("MESZ", 2),
    ("FWT", 1), ("FST", 2), ("EET", 2), ("EEST", 3), ("WAST", 7), ("WADT", 8), ("CCT", 8),
    ("JST", 9), ("EAST", 10), ("EADT", 11), ("GST", 10), ("NZT", 12), ("NZST", 12), ("NZDT", 13),
    ("IDLE", 12)]

/-- The words for numbers from one on. -/
def numberNames : List String :=
  ["one", "two", "three", "four", "five", "six", "seven", "eight", "nine", "ten"]

/-- Units of time with their seconds. -/
def units : List (String × Int) :=
  [("seconds", 1), ("minutes", 60), ("hours", 3600), ("days", 86400), ("weeks", 604800)]

/-- How much of a name stands at the front of a text, whatever the case. A text that goes on with
another letter or digit does not match at all.
-/
def matched (found : Nat) : (text name : List Char) → Nat
  | [], _ => found
  | c :: text, name =>
    match name with
    | d :: name =>
      if c.toUpper = d.toUpper then matched (found + 1) text name
      else if c.isAlphanum then 0 else found
    | [] => if c.isAlphanum then 0 else found

/-- The first name of which enough stands at the front of a text: its place and how much it is. -/
def search? (enough : (name : String) → (found : Nat) → Bool) (names : List String)
    (text : List Char) : Option (Nat × Nat) :=
  let found := names.map fun name => (name, matched 0 text name.toList)
  (found.zipIdx.find? fun ((name, found), _) => enough name found).map
    fun ((_, found), place) => (place, found)

/-- The place of the name of which at least three letters stand at the front of a text. -/
def abbreviated? (names : List String) (text : List Char) : Option (Nat × Nat) :=
  search? (fun _ found => 3 ≤ found) names text

/-- Whether a text begins with a whole name. -/
def isWhole (name : String) (text : List Char) : Bool :=
  matched 0 text name.toList = name.length

/-- The number at the front of a text, and the text after it. -/
def takeNumber (text : List Char) : Nat × List Char :=
  (Text.Integer.ofDigits 10 (text.takeWhile Char.isDigit), text.dropWhile Char.isDigit)

/-- The reading with a date, if the numbers are one and it is not more than ten days ahead. Years
may have two digits, and without a year it is the present one.
-/
def withDate? (now : Int) (clock : Clock) (year : Option Nat) (month day : Option Nat)
    : Option Clock := do
  let month ← month
  let day ← day
  if month < 1 ∨ 12 < month ∨ day < 1 ∨ 31 < day then none
  else
    let given : Option Int := match year with
      | none => some (Clock.ofSeconds now).year
      | some year =>
        if 1970 ≤ year ∧ year < 2100 then some (year - 1900)
        else if 70 < year ∧ year < 100 then some year
        else if year < 38 then some (year + 100)
        else none
    let dated := { clock with year := ← given, month := month - 1, day := day }
    if dated.seconds?.any (now + 864000 < ·) then none
    else if year.isNone then some { dated with year := clock.year } else some dated

/-- The reading after numbers around one mark, and the text after them. A colon makes a time of the
day and the other marks a date, whose parts may stand in several orders.
-/
def withGroup? (now : Int) (clock : Clock) (first : Nat) (mark : Char) (text : List Char)
    : Option (Clock × List Char) :=
  let (second, rest) := takeNumber text
  let (third, rest) := match rest with
    | c :: d :: more =>
      if c = mark && d.isDigit then
        let (third, rest) := takeNumber (d :: more)
        (some third, rest)
      else (none, c :: d :: more)
    | rest => (none, rest)
  let date (year month day : Option Nat) := withDate? now clock year month day
  let found := match mark with
    | ':' =>
      let seconds := third.getD 0
      if first < 25 ∧ second < 60 ∧ seconds ≤ 60 then
        some { clock with hour := first, minute := second, second := seconds }
      else none
    | mark =>
      let yearFirst :=
        if 70 < first then
          (date (some first) (some second) third).or (date (some first) third (some second))
        else none
      let american := date third (some first) (some second)
      let european := date third (some second) (some first)
      yearFirst.or (if mark = '.' then european.or american else american.or european)
  found.map fun clock => (clock, rest)

/-- The reading after a group of numbers of which the first stands before a text, if a mark and a
digit follow.
-/
def groupAfter? (now : Int) (clock : Clock) (first : Nat) (text : List Char)
    : Option (Clock × List Char) :=
  match text with
  | mark :: d :: rest =>
    if mark ∈ [':', '.', '/', '-'] && d.isDigit then withGroup? now clock first mark (d :: rest)
    else none
  | _ => none

end Packaging.Moment
