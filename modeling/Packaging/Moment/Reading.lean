import Packaging.Moment.Words

/-! Reading of points in time. A text that gives a full date and time means just that. Any other
text with a word or number that can be understood means a point near the present.
-/

namespace Packaging.Moment

/-! ## Full dates -/

/-- What is known of a full date: the reading, the minutes that its zone is ahead, and whether the
reading is at offset zero in any case.
-/
structure Written where
  clock : Clock := {}
  offset : Option Int := none
  settled : Bool := false

namespace Written

/-- What is known after a word, and the text after it. -/
def withWord (written : Written) (text : List Char) : Written × List Char :=
  match abbreviated? monthNames text, abbreviated? weekdayNames text with
  | some (month, length), _ =>
    ({ written with clock := { written.clock with month := month } }, text.drop length)
  | none, some (weekday, length) =>
    ({ written with clock := { written.clock with weekday := weekday } }, text.drop length)
  | none, none =>
    let zone := search? (fun name found => 3 ≤ found || found = name.length) (zones.map (·.1)) text
    match zone with
    | some (zone, length) =>
      let hours := (zones.getD zone ("", 0)).2
      ({ written with offset := written.offset.or (some (60 * hours)) }, text.drop length)
    | none =>
      let half (later : Int) : Written × List Char :=
        let hour := written.clock.hour.tmod 12 + later
        ({ written with clock := { written.clock with hour := hour } }, text.drop 2)
      if isWhole "PM" text then half 12
      else if isWhole "AM" text then half 0
      else (written, text.dropWhile Char.isAlpha)

/-- What is known after a number of few digits that stands alone. A day comes before a year and a
year before a month.
-/
def withShort (written : Written) (length number : Nat) : Written :=
  let clock := written.clock
  let set (clock : Clock) : Written := { written with clock := clock }
  if 0 < number ∧ number < 32 ∧ clock.day < 0 then set { clock with day := number }
  else if length = 2 ∧ clock.year < 0 ∧ number < 10 ∧ 0 ≤ clock.day then
    set { clock with year := number + 100 }
  else if length = 2 ∧ clock.year < 0 ∧ 70 ≤ number then set { clock with year := number }
  else if 0 < number ∧ number < 13 ∧ clock.month < 0 then set { clock with month := number - 1 }
  else written

/-- What is known after a number, and the text after it. Many digits are seconds since the start of
1970, and four are a year or a zone.
-/
def withNumber (now : Int) (written : Written) (text : List Char) : Written × List Char :=
  let (number, rest) := takeNumber text
  let length := text.length - rest.length
  if 100000000 ≤ number && written.clock.isBlank then
    ({ written with clock := Clock.ofSeconds number, settled := true }, rest)
  else
    match groupAfter? now written.clock number rest with
    | some (clock, rest) => ({ written with clock := clock }, rest)
    | none =>
      if length = 4 then
        if number ≤ 1400 ∧ written.offset.isNone then
          ({ written with offset := some (number / 100 * 60 + number % 100) }, rest)
        else if 1900 < number ∧ number < 2100 then
          ({ written with clock := { written.clock with year := number - 1900 } }, rest)
        else (written, rest)
      else if 2 < length then (written, rest)
      else (withShort written length number, rest)

/-- What is known after a zone in hours and minutes behind its sign, and the text after it. -/
def withZone (written : Written) (sign : Char) (text : List Char) : Written × List Char :=
  let (number, rest) := takeNumber text
  let length := text.length - rest.length
  let (hours, minutes, rest) := match length, rest with
    | 4, rest => (number / 100, number % 100, rest)
    | 2, ':' :: more =>
      let (minutes, after) := takeNumber more
      (number, if more.length - after.length = 2 then minutes else 99, after)
    | 2, rest => (number, 0, rest)
    | _, rest => (number, 99, rest)
  let offset : Int := hours * 60 + minutes
  if minutes < 60 ∧ hours < 24 then
    ({ written with offset := some (if sign = '-' then -offset else offset) }, rest)
  else (written, rest)

/-- What is known after at most `count` words and numbers. -/
def readAll (now : Int) : (count : Nat) → Written → List Char → Written
  | 0, written, _ => written
  | _, written, [] => written
  | count + 1, written, c :: rest =>
    if c = '\n' then written
    else if c.isAlpha then
      let (written, rest) := written.withWord (c :: rest)
      readAll now count written rest
    else if c.isDigit then
      let (written, rest) := written.withNumber now (c :: rest)
      readAll now count written rest
    else if (c = '-' || c = '+') && rest.head?.any Char.isDigit && written.clock.hour ≠ -1 then
      let (written, rest) := written.withZone c rest
      readAll now count written rest
    else readAll now count written rest

end Written

/-- The time of seconds behind an at sign, with a zone of four digits that changes nothing. -/
def stamp? (text : List Char) : Option Int :=
  match text with
  | '@' :: first :: rest =>
    let (number, rest) := takeNumber (first :: rest)
    if first < '0' || '9' ≤ first then none
    else
      match rest with
      | ' ' :: sign :: zone =>
        let ended := zone.drop 4
        if (sign = '+' || sign = '-') && zone.length ≥ 4 && (zone.take 4).all Char.isDigit
            && (ended.isEmpty || ended.head? = some '\n') then some number
        else none
      | _ => none
  | _ => none

/-- The time of a full date and time of the day. -/
def full? (now : Int) (text : List Char) : Option Int :=
  let written := Written.readAll now text.length {} text
  (stamp? text).or <| written.clock.seconds?.map fun time =>
    if written.settled then time else time - written.offset.getD 0 * 60

/-! ## Points near the present -/

/-- What is known of a point near the present: the reading, a number whose unit is still to come,
and whether anything was understood.
-/
structure Guess where
  clock : Clock
  number : Int := 0
  touched : Bool := false

namespace Guess

/-- The guess with its number as a day, a month or a year, if one of them is not known yet. -/
def settle (guess : Guess) : Guess :=
  let (number, clock) := (guess.number, guess.clock)
  if number = 0 then guess
  else
    let clock :=
      if clock.day < 0 ∧ number < 32 then { clock with day := number }
      else if clock.month < 0 ∧ number < 13 then { clock with month := number - 1 }
      else if clock.year < 0 then
        if 1969 < number ∧ number < 2100 then { clock with year := number - 1900 }
        else if 69 < number ∧ number < 100 then { clock with year := number }
        else if number < 38 then { clock with year := 100 + number }
        else clock
      else clock
    { guess with clock := clock, number := 0 }

/-- The guess some seconds earlier than told so far. -/
def earlier (now : Int) (guess : Guess) (seconds : Int) : Guess :=
  { guess with clock := guess.clock.complete (Clock.ofSeconds now) seconds, number := 0 }

/-- The guess at an hour of the same day, or of the day before if that is still to come. -/
def atHour (now : Int) (guess : Guess) (hour : Int) : Guess :=
  let clock :=
    if guess.clock.hour < hour then guess.clock.complete (Clock.ofSeconds now) 86400
    else guess.clock
  { guess with clock := { clock with hour := hour, minute := 0, second := 0 } }

/-- The guess in one half of the day. A number before it is the hour. -/
def inHalf (guess : Guess) (later : Int) : Guess :=
  let clock :=
    if guess.number = 0 then guess.clock
    else { guess.clock with hour := guess.number, minute := 0, second := 0 }
  { guess with clock := { clock with hour := clock.hour.tmod 12 + later }, number := 0 }

/-- The words that mean a point by themselves, with what they mean. -/
def special (now : Int) : List (String × (Guess → Guess)) :=
  [("yesterday", fun guess => guess.earlier now 86400),
    ("noon", fun guess => guess.atHour now 12),
    ("midnight", fun guess => guess.atHour now 0),
    ("tea", fun guess => guess.atHour now 17),
    ("PM", fun guess => guess.inHalf 12),
    ("AM", fun guess => guess.inHalf 0),
    ("never", fun guess => { guess with clock := Clock.ofSeconds 0, number := 0 }),
    ("now", fun guess => guess.earlier now 0)]

/-- The guess some months earlier. -/
def monthsEarlier (now : Int) (guess : Guess) : Guess :=
  let clock := guess.clock.complete (Clock.ofSeconds now) 0
  let month := clock.month - guess.number
  let year := clock.year + month / 12
  { guess with clock := { clock with year := year, month := month % 12 }, number := 0 }

/-- The guess some years earlier. -/
def yearsEarlier (now : Int) (guess : Guess) : Guess :=
  let clock := guess.clock.complete (Clock.ofSeconds now) 0
  { guess with clock := { clock with year := clock.year - guess.number }, number := 0 }

/-- The guess on a weekday, so many weeks back as the number tells. -/
def onWeekday (now : Int) (guess : Guess) (weekday : Int) : Guess :=
  let days := guess.clock.weekday - weekday
  let weeks := if days ≤ 0 then guess.number else guess.number - 1
  guess.earlier now ((days + 7 * weeks) * 86400)

/-- The guess after a word. Units and weekdays need a number before them. -/
def withWord (now : Int) (guess : Guess) (text : List Char) : Guess :=
  let touch (guess : Guess) : Guess := { guess with touched := true }
  match abbreviated? monthNames text, (special now).find? fun entry => isWhole entry.1 text with
  | some (month, _), _ => touch { guess with clock := { guess.clock with month := month } }
  | none, some (_, meaning) => touch (meaning guess)
  | none, none =>
    if guess.number = 0 then
      match numberNames.findIdx? (isWhole · text) with
      | some place => touch { guess with number := place + 1 }
      | none => if isWhole "last" text then touch { guess with number := 1 } else guess
    else
      let unit := units.find? fun entry => entry.1.length ≤ matched 0 text entry.1.toList + 1
      match unit, abbreviated? weekdayNames text with
      | some (_, seconds), _ => touch (guess.earlier now (seconds * guess.number))
      | none, some (weekday, _) => touch (guess.onWeekday now weekday)
      | none, none =>
        if 5 ≤ matched 0 text "months".toList then touch (guess.monthsEarlier now)
        else if 4 ≤ matched 0 text "years".toList then touch (guess.yearsEarlier now)
        else guess

/-- The guess after a number, and the text after it. A number of 32 bits stays until its unit is
known, unless zeros fill it up to more than two digits.
-/
def withNumber (now : Int) (guess : Guess) (text : List Char) : Guess × List Char :=
  let guess := { guess.settle with touched := true }
  let (number, rest) := takeNumber text
  match groupAfter? now guess.clock number rest with
  | some (clock, rest) => ({ guess with clock := clock }, rest)
  | none =>
    let isPadded := text.head? = some '0' && 2 < text.length - rest.length
    let number : Int := if number < Nat.pow 2 64 then (number : Int).bmod (Nat.pow 2 32) else -1
    (if isPadded then guess else { guess with number := number }, rest)

/-- The guess after at most `count` words and numbers. -/
def readAll (now : Int) : (count : Nat) → Guess → List Char → Guess
  | 0, guess, _ => guess
  | _, guess, [] => guess
  | count + 1, guess, c :: rest =>
    if c.isDigit then
      let (guess, rest) := guess.withNumber now (c :: rest)
      readAll now count guess rest
    else if c.isAlpha then
      readAll now count (guess.withWord now (c :: rest)) (rest.dropWhile Char.isAlpha)
    else readAll now count guess rest

end Guess

/-- The time near the present that a text means. -/
def near? (now : Int) (text : List Char) : Option Int :=
  let start := { Clock.ofSeconds now with year := -1, month := -1, day := -1 }
  let guess := (Guess.readAll now text.length { clock := start } text).settle
  if guess.touched then some (guess.clock.complete (Clock.ofSeconds now) 0).toSeconds else none

/-- The time that a text means at the present time `now`. -/
def read? (now : Int) (text : List Char) : Option Int :=
  (full? now text).or (near? now text)

end Packaging.Moment
