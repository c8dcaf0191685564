/-! Digits of numbers, padded to a width, and bytes written by digits.
-/

namespace Packaging.Digits

/-- The digits of a number in a base, with zeros before them up to a width. -/
def padded (base width number : Nat) : List Char :=
  let digits := Nat.toDigits base number
  List.replicate (width - digits.length) '0' ++ digits

def hexValue (c : Char) : Nat :=
  if c.isDigit then c.toNat - '0'.toNat else c.toLower.toNat - 'a'.toNat + 10

/-- The bytes that pairs of hexadecimal digits stand for. A digit without a partner is dropped. -/
def bytes : List Char → List UInt8
  | high :: low :: rest => UInt8.ofNat (16 * hexValue high + hexValue low) :: bytes rest
  | _ => []

/-- Padded digits are never fewer than the width. -/
theorem length_padded (base width number : Nat)
    : width ≤ (padded base width number).length := by
  simp only [padded, List.length_append, List.length_replicate]
  omega

end Packaging.Digits
