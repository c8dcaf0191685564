import Packaging.Document.Value
import Packaging.Decimal.Double

/-! What a YAML scalar stands for. A plain scalar may be a null, a boolean or a number, and a
core tag demands one of them.
-/

namespace Packaging.Yaml

/-- The number that digits of a base stand for, at least one. -/
def number? (base : Nat) (digits : List Char) : Option Nat :=
  if digits.isEmpty then none
  else
    digits.foldlM (fun n c =>
      let digit :=
        if c.isDigit then c.toNat - '0'.toNat
        else if c.isLower then c.toNat - 'a'.toNat + 10
        else if c.isUpper then c.toNat - 'A'.toNat + 10
        else base
      if digit < base then some (base * n + digit) else none) 0

/-- Whether a text is a zero and more digits, perhaps after a sign, which is not a number. -/
def isPadded (text : List Char) : Bool :=
  let digits :=
    match text with
    | '+' :: rest | '-' :: rest => rest
    | _ => text
  1 < digits.length && digits.head? = some '0' && digits.all Char.isDigit

/-- The integer that a text stands for, in any of the four bases. -/
def integer? (text : List Char) : Option Int :=
  let unsigned (digits : List Char) : Option Nat :=
    match digits with
    | '0' :: 'x' :: rest => number? 16 rest
    | '0' :: 'o' :: rest => number? 8 rest
    | '0' :: 'b' :: rest => number? 2 rest
    | _ => if isPadded digits then none else number? 10 digits
  match text with
  | '-' :: rest => (unsigned rest).map fun n => -(n : Int)
  | '+' :: rest => (unsigned rest).map fun n => (n : Int)
  | _ => (unsigned text).map fun n => (n : Int)

/-- An exponent after its letter. -/
def exponentValue? (text : List Char) : Option Int :=
  match text with
  | '-' :: digits => (number? 10 digits).map fun n => -(n : Int)
  | '+' :: digits => (number? 10 digits).map fun n => (n : Int)
  | digits => (number? 10 digits).map fun n => (n : Int)

/-- The finite double nearest to a decimal without a sign. Digits may be missing on one side of
the point.
-/
def magnitude? (text : List Char) : Option Nat := do
  let whole := text.takeWhile Char.isDigit
  let rest := text.dropWhile Char.isDigit
  let (fraction, rest) :=
    match rest with
    | '.' :: rest => (rest.takeWhile Char.isDigit, rest.dropWhile Char.isDigit)
    | _ => ([], rest)
  let digits ← number? 10 (whole ++ fraction)
  let exponent ←
    match rest with
    | [] => some 0
    | c :: rest => if c = 'e' ∨ c = 'E' then exponentValue? rest else none
  let bits := Double.ofDecimal digits (exponent - fraction.length)
  if bits = Double.infinity then none else some bits

/-- Whether a text names an infinity or the absence of a number. -/
def isNonFinite (text : List Char) : Bool :=
  let unsigned :=
    match text with
    | '+' :: rest => rest
    | _ => text
  [".inf", ".Inf", ".INF"].any (·.toList = unsigned)
    || ["-.inf", "-.Inf", "-.INF", ".nan", ".NaN", ".NAN"].any (·.toList = text)

/-- The real number that a text stands for. What is not finite has no value of its own. -/
def real? (text : List Char) : Option Value :=
  if isNonFinite text then some .null
  else
    match text with
    | '-' :: rest => (magnitude? rest).map fun bits => .real (UInt64.ofNat (Double.signBit + bits))
    | '+' :: rest => (magnitude? rest).map fun bits => .real (UInt64.ofNat bits)
    | _ => (magnitude? text).map fun bits => .real (UInt64.ofNat bits)

/-- The boolean that a text stands for. -/
def boolean? (text : List Char) : Option Bool :=
  if ["true", "True", "TRUE"].any (·.toList = text) then some true
  else if ["false", "False", "FALSE"].any (·.toList = text) then some false
  else none

def isNull (text : List Char) : Bool :=
  ["null", "Null", "NULL", "~"].any (·.toList = text)

/-- The value of an integer. One that 64 bits cannot hold is refused. -/
def integerValue? (n : Int) : Option Value :=
  if -(Nat.pow 2 63) ≤ n ∧ n < Nat.pow 2 64 then some (.integer n) else none

/-- Whether an integer can be held by 128 bits, and so counts as one. -/
def isIntegral (n : Int) : Bool :=
  -(Nat.pow 2 127) ≤ n && n < Nat.pow 2 128

def plainValue? (text : List Char) : Option Value :=
  if text.isEmpty ∨ isNull text then some .null
  else
    match boolean? text with
    | some b => some (.boolean b)
    | none =>
      match (integer? text).filter isIntegral with
      | some n => integerValue? n
      | none =>
        let real := if isPadded text then none else real? text
        some (real.getD (.text (String.ofList text)))

/-- What a scalar with a tag stands for. A tag of the core demands its kind, a local tag is
refused and any other one makes a text.
-/
def taggedValue? (tag text : List Char) : Option Value :=
  if tag.head? = some '!' then none
  else if tag = "tag:yaml.org,2002:bool".toList then (boolean? text).map .boolean
  else if tag = "tag:yaml.org,2002:int".toList then
    ((integer? text).filter isIntegral).bind integerValue?
  else if tag = "tag:yaml.org,2002:float".toList then real? text
  else if tag = "tag:yaml.org,2002:null".toList then
    if isNull text then some .null else none
  else some (.text (String.ofList text))

end Packaging.Yaml
