import Packaging.Decimal.Shortest
import Packaging.Document.Value
import Packaging.Text.Digits

/-! The compact text of a value: JSON on one line, without blanks, in the order of the entries.
-/

namespace Packaging

/-- Real numbers have positional notation from a hundred-thousandth up to sixteen digits, and
otherwise an exponent.
-/
def Value.realLayout : Decimal.Layout := ⟨-5, 15⟩

namespace Compact

/-- A code unit by its number, padded to four digits. -/
def unitEscape (unit : Nat) : List Char :=
  ['\\', 'u'] ++ Digits.padded 16 4 unit

/-- One character inside a JSON text. Only what JSON demands is escaped. -/
def escapeChar (c : Char) : List Char :=
  match c with
  | '"' => ['\\', '"']
  | '\\' => ['\\', '\\']
  | '\x08' => ['\\', 'b']
  | '\x0c' => ['\\', 'f']
  | '\n' => ['\\', 'n']
  | '\r' => ['\\', 'r']
  | '\t' => ['\\', 't']
  | c => if c.toNat < 0x20 then unitEscape c.toNat else [c]

/-- One character of a JSON text in ASCII alone. A character beyond 16 bits takes two units. -/
def asciiChar (c : Char) : List Char :=
  if c.toNat < 0x7f then [c]
  else if c.toNat < 0x10000 then unitEscape c.toNat
  else
    let offset := c.toNat - 0x10000
    unitEscape (0xd800 + offset / 0x400) ++ unitEscape (0xdc00 + offset % 0x400)

def text (s : String) : String :=
  String.ofList ('"' :: s.toList.flatMap escapeChar ++ ['"'])

end Compact

mutual

def Value.compact : Value → String
  | .null => "null"
  | .boolean true => "true"
  | .boolean false => "false"
  | .integer number => toString number
  | .real bits => Decimal.text Value.realLayout bits
  | .text content => Compact.text content
  | .list items => "[" ++ ",".intercalate (compactItems items) ++ "]"
  | .mapping entries => "\x7b" ++ ",".intercalate (compactEntries entries) ++ "\x7d"

def Value.compactItems : List Value → List String
  | [] => []
  | item :: rest => item.compact :: compactItems rest

/-- The compact text of each entry, the key before its value. -/
def Value.compactEntries : List (String × Value) → List String
  | [] => []
  | (key, value) :: rest => (Compact.text key ++ ":" ++ value.compact) :: compactEntries rest

end

/-- The compact text of a value in ASCII alone. -/
def Value.compactAscii (value : Value) : String :=
  String.ofList (value.compact.toList.flatMap Compact.asciiChar)

end Packaging
