import Packaging.Document.Value
import Packaging.Decimal.Double

/-! Reading JSON text. Characters are grouped into tokens and tokens into a value, each by one
pass that keeps what is still open.
-/

namespace Packaging.Json

inductive Token where
  | openList
  | closeList
  | openMapping
  | closeMapping
  | comma
  | colon
  | scalar (value : Value)

/-! ### Numbers -/

/-- The parts of a number as written. -/
structure Numeral where
  negative : Bool
  whole : List Char
  fraction : Option (List Char)
  exponent : Option (Bool × List Char)

/-- The digits at the front, at least one, and what follows them. -/
def digits? (cs : List Char) : Option (List Char × List Char) :=
  match cs.takeWhile Char.isDigit with
  | [] => none
  | digits => some (digits, cs.dropWhile Char.isDigit)

/-- The fraction at the front, if a point opens one. -/
def fraction? (cs : List Char) : Option (Option (List Char) × List Char) :=
  match cs with
  | '.' :: rest => (digits? rest).map fun (digits, rest) => (some digits, rest)
  | _ => some (none, cs)

/-- The exponent at the front, if there is one, and whether it is negative. -/
def exponent? (cs : List Char) : Option (Option (Bool × List Char) × List Char) :=
  match cs with
  | c :: rest =>
    if c = 'e' ∨ c = 'E' then
      let (negative, rest) : Bool × List Char :=
        match rest with
        | '-' :: rest => (true, rest)
        | '+' :: rest => (false, rest)
        | _ => (false, rest)
      (digits? rest).map fun (digits, rest) => (some (negative, digits), rest)
    else some (none, cs)
  | [] => some (none, cs)

/-- The parts of a whole word that is a number. No digit follows a leading zero. -/
def numeral? (word : List Char) : Option Numeral := do
  let (negative, rest) : Bool × List Char :=
    match word with
    | '-' :: rest => (true, rest)
    | _ => (false, word)
  let (whole, rest) ← digits? rest
  guard (whole.head? ≠ some '0' ∨ whole.length = 1)
  let (fraction, rest) ← fraction? rest
  let (exponent, rest) ← exponent? rest
  guard rest.isEmpty
  return { negative, whole, fraction, exponent }

/-- The number a run of digits stands for. -/
def decimal (digits : List Char) : Nat :=
  digits.foldl (fun n c => 10 * n + (c.toNat - '0'.toNat)) 0

/-- The least number that 64 bits cannot hold. -/
def wordLimit : Nat := Nat.pow 2 64

/-- The leading digits of a whole part that fit 64 bits, and the count of those left out. -/
def cutWhole (digits : List Char) : Nat × Nat :=
  digits.foldl (fun (number, dropped) c =>
    let next := 10 * number + decimal [c]
    if 0 < dropped ∨ wordLimit ≤ next then (number, dropped + 1) else (next, 0)) (0, 0)

/-- A fraction's digits taken after `number` while they fit 64 bits, and the count taken. -/
def cutFraction (number : Nat) : List Char → Nat × Nat
  | [] => (number, 0)
  | c :: rest =>
    let next := 10 * number + decimal [c]
    if wordLimit ≤ next then (number, 0)
    else
      let (number, taken) := cutFraction next rest
      (number, taken + 1)

/-- A finite double multiplied or divided by a power of ten that is itself rounded to a double.
Powers below the least one are divided out in steps; a result too large is refused.
-/
def scale? (bits : Nat) (exponent : Int) : Option Nat :=
  if bits = 0 then some 0
  else if 308 < exponent then none
  else if 0 ≤ exponent then
    let product := Double.mul bits (Double.ofDecimal 1 exponent)
    if product = Double.infinity then none else some product
  else if -308 ≤ exponent then some (Double.div bits (Double.ofDecimal 1 (-exponent)))
  else scale? (Double.div bits (Double.ofDecimal 1 308)) (exponent + 308)
termination_by (-exponent).toNat

/-- The value of a number: an integer when written as one and held by 64 bits, else a double. A
negative zero is a double.
-/
def Numeral.value? (numeral : Numeral) : Option Value :=
  let (whole, dropped) := cutWhole numeral.whole
  let (significand, taken) := cutFraction whole (numeral.fraction.getD [])
  let written : Int :=
    match numeral.exponent with
    | none => 0
    | some (true, digits) => -(decimal digits : Int)
    | some (false, digits) => decimal digits
  let isWhole := numeral.fraction.isNone && numeral.exponent.isNone && dropped = 0
  if isWhole ∧ ¬numeral.negative then some (.integer whole)
  else if isWhole ∧ 0 < whole ∧ whole ≤ Nat.pow 2 63 then some (.integer (-(whole : Int)))
  else
    (scale? (Double.ofDecimal significand 0) (dropped - taken + written)).map fun bits =>
      .real (UInt64.ofNat (if numeral.negative then Double.signBit + bits else bits))

/-! ### Tokens -/

/-- What the characters read so far have left open. Collected characters stand in reverse. -/
inductive Pending where
  | nothing
  | word (collected : List Char)
  | text (collected : List Char)
  | escape (collected : List Char)
  /-- Inside the four digits of a code unit, after the first half of a pair if `high` is given. -/
  | unit (collected : List Char) (high : Option Nat) (number count : Nat)
  /-- After the first half of a pair, whose second half must follow. -/
  | half (collected : List Char) (high : Nat)
  | halfEscape (collected : List Char) (high : Nat)

/-- Whether a character belongs to a number or a literal. -/
def isWordChar (c : Char) : Bool :=
  c.isAlphanum || c = '-' || c = '+' || c = '.'

/-- The value that a complete word stands for. -/
def word? (word : List Char) : Option Value :=
  if word = "null".toList then some .null
  else if word = "true".toList then some (.boolean true)
  else if word = "false".toList then some (.boolean false)
  else (numeral? word).bind Numeral.value?

/-- Open a token with its first character, outside words and texts. -/
def openToken (tokens : List Token) (c : Char) : Option (List Token × Pending) :=
  match c with
  | '[' => some (.openList :: tokens, .nothing)
  | ']' => some (.closeList :: tokens, .nothing)
  | '\x7b' => some (.openMapping :: tokens, .nothing)
  | '\x7d' => some (.closeMapping :: tokens, .nothing)
  | ',' => some (.comma :: tokens, .nothing)
  | ':' => some (.colon :: tokens, .nothing)
  | '"' => some (tokens, .text [])
  | ' ' | '\t' | '\n' | '\r' => some (tokens, .nothing)
  | c => if isWordChar c then some (tokens, .word [c]) else none

/-- The character that a single letter stands for after a backslash. -/
def escaped? : Char → Option Char
  | '"' => some '"'
  | '\\' => some '\\'
  | '/' => some '/'
  | 'b' => some '\x08'
  | 'f' => some '\x0c'
  | 'n' => some '\n'
  | 'r' => some '\r'
  | 't' => some '\t'
  | _ => none

def hexDigit? (c : Char) : Option Nat :=
  if c.isDigit then some (c.toNat - '0'.toNat)
  else if 'a' ≤ c ∧ c ≤ 'f' then some (c.toNat - 'a'.toNat + 10)
  else if 'A' ≤ c ∧ c ≤ 'F' then some (c.toNat - 'A'.toNat + 10)
  else none

/-- Continue after a complete code unit. A first half waits for its second half, and neither
half stands alone.
-/
def closeUnit (collected : List Char) (high : Option Nat) (number : Nat) : Option Pending :=
  match high with
  | some high =>
    if 0xdc00 ≤ number ∧ number < 0xe000 then
      some (.text (Char.ofNat (0x10000 + (high - 0xd800) * 0x400 + (number - 0xdc00))
        :: collected))
    else none
  | none =>
    if 0xd800 ≤ number ∧ number < 0xdc00 then some (.half collected number)
    else if 0xdc00 ≤ number ∧ number < 0xe000 then none
    else some (.text (Char.ofNat number :: collected))

def lexChar (state : List Token × Pending) (c : Char) : Option (List Token × Pending) :=
  let (tokens, pending) := state
  match pending with
  | .nothing => openToken tokens c
  | .word collected =>
    if isWordChar c then some (tokens, .word (c :: collected))
    else (word? collected.reverse).bind fun value => openToken (.scalar value :: tokens) c
  | .text collected =>
    if c = '"' then
      some (.scalar (.text (String.ofList collected.reverse)) :: tokens, .nothing)
    else if c = '\\' then some (tokens, .escape collected)
    else if c.toNat < 0x20 then none
    else some (tokens, .text (c :: collected))
  | .escape collected =>
    if c = 'u' then some (tokens, .unit collected none 0 0)
    else (escaped? c).map fun c => (tokens, .text (c :: collected))
  | .unit collected high number count =>
    (hexDigit? c).bind fun digit =>
      let number := 16 * number + digit
      if count < 3 then some (tokens, .unit collected high number (count + 1))
      else (closeUnit collected high number).map fun pending => (tokens, pending)
  | .half collected high => if c = '\\' then some (tokens, .halfEscape collected high) else none
  | .halfEscape collected high =>
    if c = 'u' then some (tokens, .unit collected (some high) 0 0) else none

/-- The tokens of a text, unless it ends inside one. -/
def tokens? (text : List Char) : Option (List Token) := do
  let (tokens, pending) ← text.foldlM lexChar ([], .nothing)
  match pending with
  | .nothing => some tokens.reverse
  | .word collected =>
    let value ← word? collected.reverse
    some (Token.scalar value :: tokens).reverse
  | _ => none

/-! ### Values -/

/-- A collection that is still open. Its items stand in reverse. -/
inductive Frame where
  | items (done : List Value)
  | entries (done : Fields) (key : String)

/-- What may come next. -/
inductive Expecting where
  | value
  | itemOrEnd
  | key
  | keyOrEnd
  | colon
  | separator
  | nothing (result : Value)

/-- The open collections, the innermost first, and what may come next. -/
structure Reading where
  frames : List Frame
  expecting : Expecting

/-- Put a complete value where it belongs. -/
def Reading.deliver (frames : List Frame) (value : Value) : Reading :=
  match frames with
  | [] => ⟨[], .nothing value⟩
  | .items done :: outer => ⟨.items (value :: done) :: outer, .separator⟩
  | .entries done key :: outer => ⟨.entries (Fields.insert key value done) "" :: outer, .separator⟩

/-- How many collections may be open at once. -/
def depthLimit : Nat := 127

/-- Open a collection unless too many are open. -/
def Reading.enter (frames : List Frame) (frame : Frame) (expecting : Expecting)
    : Option Reading :=
  if frames.length < depthLimit then some ⟨frame :: frames, expecting⟩ else none

/-- Take the first token of a value. -/
def Reading.openValue (frames : List Frame) : Token → Option Reading
  | .scalar value => some (deliver frames value)
  | .openList => enter frames (.items []) .itemOrEnd
  | .openMapping => enter frames (.entries [] "") .keyOrEnd
  | _ => none

def Reading.close (frames : List Frame) (token : Token) : Option Reading :=
  match token, frames with
  | .closeList, .items done :: outer => some (deliver outer (.list done.reverse))
  | .closeMapping, .entries done _ :: outer => some (deliver outer (.mapping done))
  | _, _ => none

def Reading.takeKey (frames : List Frame) (token : Token) : Option Reading :=
  match token, frames with
  | .scalar (.text key), .entries done _ :: outer => some ⟨.entries done key :: outer, .colon⟩
  | _, _ => none

def Reading.step (reading : Reading) (token : Token) : Option Reading :=
  let frames := reading.frames
  match reading.expecting, token with
  | .value, token => openValue frames token
  | .itemOrEnd, .closeList => close frames .closeList
  | .itemOrEnd, token => openValue frames token
  | .key, token => takeKey frames token
  | .keyOrEnd, .closeMapping => close frames .closeMapping
  | .keyOrEnd, token => takeKey frames token
  | .colon, .colon => some ⟨frames, .value⟩
  | .separator, .comma =>
    match frames with
    | .items _ :: _ => some ⟨frames, .value⟩
    | .entries _ _ :: _ => some ⟨frames, .key⟩
    | [] => none
  | .separator, token => close frames token
  | _, _ => none

/-- The value that a JSON text stands for. The last of repeated keys wins. -/
def read? (text : String) : Option Value := do
  let tokens ← tokens? text.toList
  let reading ← tokens.foldlM Reading.step ⟨[], .value⟩
  match reading.expecting with
  | .nothing result => some result
  | _ => none

end Packaging.Json
