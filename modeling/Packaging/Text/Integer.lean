import Packaging.Text.Digits

/-! Whole numbers at the front of a text. Blanks and one sign may stand before the digits, and a
number has to fit into 64 bits.
-/

namespace Packaging.Text.Integer

/-- The characters that count as blank. -/
def isBlank (c : Char) : Bool :=
  c = ' ' || ('\t' ≤ c && c ≤ '\r')

/-- Whether a character is a digit of a base. Letters in either case follow the ten digits. -/
def isDigit (base : Nat) (c : Char) : Bool :=
  c.isAlphanum && Digits.hexValue c < base

/-- The number that digits of a base spell. -/
def ofDigits (base : Nat) (digits : List Char) : Nat :=
  digits.foldl (fun n c => base * n + Digits.hexValue c) 0

/-- The base of an unsigned number, and its text without the mark of the base. A zero at the front
announces base 8, and an `x` between two other characters base 16.
-/
def announced : List Char → Nat × List Char
  | '0' :: x :: c :: rest =>
    if x = 'x' || x = 'X' then (16, c :: rest) else (8, '0' :: x :: c :: rest)
  | '0' :: rest => (8, '0' :: rest)
  | text => (10, text)

/-- Whether a number fits into a word of the given size with a sign. -/
def fits (bits : Nat) (n : Int) : Bool :=
  -(Nat.pow 2 (bits - 1)) ≤ n && n < Nat.pow 2 (bits - 1)

/-- The number at the front of a text, and the text after it. Without a base the text announces
its own.
-/
def take? (base : Option Nat) (text : List Char) : Option (Int × List Char) :=
  let (negative, unsigned) := match text.dropWhile isBlank with
    | '-' :: rest => (true, rest)
    | '+' :: rest => (false, rest)
    | rest => (false, rest)
  let (base, digits) := match base with
    | some base => (base, unsigned)
    | none => announced unsigned
  let size : Int := ofDigits base (digits.takeWhile (isDigit base))
  let value := if negative then -size else size
  if (digits.takeWhile (isDigit base)).isEmpty || !fits 64 value then none
  else some (value, digits.dropWhile (isDigit base))

/-- The number of 32 bits that a whole text spells in decimal digits. -/
def whole? (text : List Char) : Option Int :=
  match take? (some 10) text with
  | some (value, []) => if fits 32 value then some value else none
  | _ => none

end Packaging.Text.Integer
