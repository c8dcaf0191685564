import Packaging.Text.Hidden

/-! Quoted texts as they stand in messages and log lines. A quotation shows every character of
the text: what has no visible form is written by its code point.
-/

namespace Packaging.Text

/-- The lower-case hexadecimal digits of a code point, without padding. -/
def codePoint (c : Char) : List Char :=
  Nat.toDigits 16 c.toNat

/-- One character inside a quotation. An apostrophe stands for itself. -/
def quoteChar (c : Char) : List Char :=
  match c with
  | '"' => ['\\', '"']
  | '\\' => ['\\', '\\']
  | '\n' => ['\\', 'n']
  | '\t' => ['\\', 't']
  | '\r' => ['\\', 'r']
  | '\x00' => ['\\', '0']
  | c =>
    if c.toNat < 0x20 ∨ c.toNat = 0x7f ∨ (0x80 ≤ c.toNat ∧ isHidden c) then
      ['\\', 'u', '\x7b'] ++ codePoint c ++ ['\x7d']
    else [c]

def quoted (s : String) : String :=
  String.ofList ('"' :: s.toList.flatMap quoteChar ++ ['"'])

/-- A list of texts, each in double quotes, between brackets. -/
def quotedList (texts : List String) : String :=
  "[" ++ ", ".intercalate (texts.map quoted) ++ "]"

end Packaging.Text
