/-! Doubles as bit patterns over exact natural numbers: the double nearest to a ratio, and the
exact value of a double. Signs are left to the callers, so every pattern here is non-negative.
-/

namespace Packaging.Double

/-- The pattern of the first value that is no longer finite. -/
def infinity : Nat := 2047 * Nat.pow 2 52

/-- The pattern of the sign. -/
def signBit : Nat := Nat.pow 2 63

/-- The whole number nearest to a ratio, ties going to the even neighbour. -/
def nearestNat (numerator denominator : Nat) : Nat :=
  let quotient := numerator / denominator
  let twice := 2 * (numerator % denominator)
  if twice < denominator then quotient
  else if denominator < twice then quotient + 1
  else quotient + quotient % 2

/-- The exponent of the last place of the double nearest to a positive ratio: the value has 53
binary digits above that place, or fewer where the least exponent is reached.
-/
def lastPlace (numerator denominator : Nat) : Int :=
  let estimate : Int := (Nat.log2 numerator : Int) - Nat.log2 denominator
  let below :=
    numerator * Nat.pow 2 (-estimate).toNat < denominator * Nat.pow 2 estimate.toNat
  max (-1074) (if below then estimate - 53 else estimate - 52)

/-- The double nearest to a ratio, ties going to the even neighbour. Values too large for a
finite double give `infinity`.
-/
def ofRatio (numerator denominator : Nat) : Nat :=
  if numerator = 0 then 0
  else
    let place := lastPlace numerator denominator
    let significand :=
      nearestNat (numerator * Nat.pow 2 (-place).toNat) (denominator * Nat.pow 2 place.toNat)
    min infinity ((place + 1074).toNat * Nat.pow 2 52 + significand)

/-- The number of decimal digits, none for zero. -/
def digitCount (n : Nat) : Nat :=
  if n = 0 then 0 else (Nat.toDigits 10 n).length

/-- The double nearest to `digits` times a power of ten. A magnitude far outside the range is
decided by its count of digits.
-/
def ofDecimal (digits : Nat) (exponent : Int) : Nat :=
  let magnitude : Int := digitCount digits + exponent
  if digits = 0 ∨ magnitude < -400 then 0
  else if 400 < magnitude then infinity
  else ofRatio (digits * Nat.pow 10 exponent.toNat) (Nat.pow 10 (-exponent).toNat)

/-- The whole number and the power of two whose product a finite pattern stands for. -/
def parts (bits : Nat) : Nat × Int :=
  let exponent : Nat := bits / Nat.pow 2 52
  let fraction : Nat := bits % Nat.pow 2 52
  if exponent = 0 then (fraction, -1074) else (Nat.pow 2 52 + fraction, (exponent : Int) - 1075)

/-- A finite pattern as a ratio of whole numbers. -/
def ratio (bits : Nat) : Nat × Nat :=
  let (significand, place) := parts bits
  (significand * Nat.pow 2 place.toNat, Nat.pow 2 (-place).toNat)

/-- The rounded product of two finite patterns. -/
def mul (a b : Nat) : Nat :=
  ofRatio ((ratio a).1 * (ratio b).1) ((ratio a).2 * (ratio b).2)

/-- The rounded quotient of two finite patterns, the second one not zero. -/
def div (a b : Nat) : Nat :=
  ofRatio ((ratio a).1 * (ratio b).2) ((ratio a).2 * (ratio b).1)

end Packaging.Double
