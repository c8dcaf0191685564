import Packaging.Decimal.Double

/-! The shortest decimal that reads back as a given double, and its text. Of the decimals with
the fewest digits the one nearest to the double is taken.
-/

namespace Packaging.Decimal

/-- A positive decimal: `digits` times ten to the `exponent`. -/
structure Scientific where
  digits : Nat
  exponent : Int

/-- Where positional notation ends. A number whose first digit stands for a power of ten between
the two bounds is written positionally, and any other with an exponent.
-/
structure Layout where
  least : Int
  greatest : Int

/-- The reals that round to a double, in units of a quarter of its last place: the ends belong
to it when the significand is even, and the lower half is narrower above a power of two.
-/
structure Rounding where
  lower : Nat
  middle : Nat
  upper : Nat
  place : Int
  closed : Bool

/-- The rounding interval of a positive finite pattern. -/
def Rounding.ofBits (bits : Nat) : Rounding :=
  let (significand, place) := Double.parts bits
  let narrow := significand = Nat.pow 2 52 ∧ -1074 < place
  { lower := 4 * significand - (if narrow then 1 else 2)
    middle := 4 * significand
    upper := 4 * significand + 2
    place := place - 2
    closed := significand % 2 = 0 }

/-- The numerator and denominator of `count` steps of ten to the `exponent`, measured in units
of two to the `place`.
-/
def steps (count : Nat) (exponent place : Int) : Nat × Nat :=
  (count * Nat.pow 10 exponent.toNat * Nat.pow 2 (-place).toNat,
    Nat.pow 10 (-exponent).toNat * Nat.pow 2 place.toNat)

/-- Whether `count` steps of ten to the `exponent` round to the double. -/
def Rounding.holds (rounding : Rounding) (count : Nat) (exponent : Int) : Bool :=
  let (numerator, denominator) := steps count exponent rounding.place
  let low := rounding.lower * denominator
  let high := rounding.upper * denominator
  if rounding.closed then low ≤ numerator && numerator ≤ high
  else low < numerator && numerator < high

/-- The point of the grid of ten to the `exponent` that is nearest to the double among the two
beside it that round to it, the even one if both are as near.
-/
def Rounding.onGrid? (rounding : Rounding) (exponent : Int) : Option Scientific :=
  let (unit, denominator) := steps 1 exponent rounding.place
  let middle := rounding.middle * denominator
  let below := middle / unit
  let rest := middle % unit
  let down := rounding.holds below exponent
  let up := rounding.holds (below + 1) exponent
  let preferUp := unit < 2 * rest ∨ (unit = 2 * rest ∧ below % 2 = 1)
  if down ∧ ¬(up ∧ preferUp) then some ⟨below, exponent⟩
  else if up then some ⟨below + 1, exponent⟩
  else none

/-- The power of ten that the first digit of a positive finite pattern stands for. -/
def leadingExponent (bits : Nat) : Int :=
  let (numerator, denominator) := Double.ratio bits
  if denominator ≤ numerator then (Double.digitCount (numerator / denominator) : Int) - 1
  else
    match (List.range 400).find? fun shift => denominator ≤ numerator * Nat.pow 10 shift with
    | some shift => -(shift : Int)
    | none => -400

/-- The decimal of the fewest digits that rounds to a positive finite pattern. -/
def shortest (bits : Nat) : Scientific :=
  let rounding := Rounding.ofBits bits
  let leading := leadingExponent bits
  let found := (List.range 17).findSome? fun (extra : Nat) => rounding.onGrid? (leading - extra)
  found.getD ⟨0, 0⟩

/-- The digits without the zeros at their end, and the power of ten that stands before all of
them.
-/
def Scientific.spelled (decimal : Scientific) : List Char × Int :=
  let digits := Nat.toDigits 10 decimal.digits
  let significant := (digits.reverse.dropWhile (· = '0')).reverse
  (significant, (digits.length : Int) + decimal.exponent)

/-- The text of a positive decimal in the given layout, always with a fraction or an exponent.
-/
def Scientific.render (layout : Layout) (decimal : Scientific) : String :=
  let (digits, point) := decimal.spelled
  let zeros (n : Int) := List.replicate n.toNat '0'
  let leading := point - 1
  if layout.least ≤ leading ∧ leading ≤ layout.greatest then
    if point ≤ 0 then String.ofList (['0', '.'] ++ zeros (-point) ++ digits)
    else
      let whole := digits.take point.toNat ++ zeros (point - digits.length)
      let fraction := digits.drop point.toNat
      String.ofList (whole ++ ['.'] ++ if fraction.isEmpty then ['0'] else fraction)
  else
    let fraction := digits.drop 1
    let mantissa := digits.take 1 ++ if fraction.isEmpty then [] else '.' :: fraction
    String.ofList (mantissa ++ ['e', if 0 ≤ leading then '+' else '-']
      ++ Nat.toDigits 10 leading.natAbs)

/-- The shortest text of a finite double. -/
def text (layout : Layout) (bits : UInt64) : String :=
  let pattern := bits.toNat
  let magnitude := pattern % Double.signBit
  let body := if magnitude = 0 then "0.0" else (shortest magnitude).render layout
  if Double.signBit ≤ pattern then "-" ++ body else body

end Packaging.Decimal
