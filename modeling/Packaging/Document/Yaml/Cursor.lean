/-! A place in YAML text, and the classes of characters that decide where a token ends. -/

namespace Packaging.Yaml

/-- A position: bytes before it, lines before it, and characters before it on its line. -/
structure Mark where
  index : Nat := 0
  line : Nat := 0
  column : Nat := 0

/-- The position after one more character of the line. -/
def Mark.next (mark : Mark) (c : Char) : Mark :=
  { mark with index := mark.index + c.utf8Size, column := mark.column + 1 }

/-- The position after `count` more characters of the line, all of them ASCII. -/
def Mark.nextAscii (mark : Mark) (count : Nat) : Mark :=
  { mark with index := mark.index + count, column := mark.column + count }

/-- The position after more characters of the line. -/
def Mark.pass (mark : Mark) (text : List Char) : Mark :=
  text.foldl Mark.next mark

/-- The position after a character that breaks the line. -/
def Mark.nextLine (mark : Mark) (c : Char) : Mark :=
  { index := mark.index + c.utf8Size, line := mark.line + 1, column := 0 }

/-- The position after the two characters that together break a line. -/
def Mark.nextLineOfTwo (mark : Mark) : Mark :=
  { index := mark.index + 2, line := mark.line + 1, column := 0 }

/-- The text that remains and its position. -/
structure Cursor where
  rest : List Char
  mark : Mark := {}

/-- Pass over `count` characters of a line. -/
def Cursor.skip (cursor : Cursor) (count : Nat) : Cursor :=
  ⟨cursor.rest.drop count, cursor.mark.pass (cursor.rest.take count)⟩

/-- The characters at the front that satisfy `p`, and the cursor after them. -/
def Cursor.takeWhile (p : Char → Bool) (cursor : Cursor) : List Char × Cursor :=
  let taken := cursor.rest.takeWhile p
  (taken, ⟨cursor.rest.drop taken.length, cursor.mark.pass taken⟩)

/-- Pass over the characters at the front that satisfy `p`. -/
def Cursor.skipWhile (p : Char → Bool) (cursor : Cursor) : Cursor :=
  (cursor.takeWhile p).2

/-- A space or a tab. -/
def isBlank (c : Char) : Bool :=
  c = ' ' || c = '\t'

/-- A character that ends a line. -/
def isBreak (c : Char) : Bool :=
  c = '\n' || c = '\r' || c = '\u0085' || c = '\u2028' || c = '\u2029'

/-- The break as it enters a scalar. The separators of lines and paragraphs are kept. -/
def normalBreak (c : Char) : Char :=
  if c = '\u2028' ∨ c = '\u2029' then c else '\n'

/-- A letter or digit of ASCII, a hyphen or an underscore. -/
def isNameChar (c : Char) : Bool :=
  c.isAlphanum || c = '-' || c = '_'

/-- Whether the text is at its end or at a blank or a break. -/
def atSpace : List Char → Bool
  | [] => true
  | c :: _ => isBlank c || isBreak c

/-- Whether the text is at its end or at a break. -/
def atLineEnd : List Char → Bool
  | [] => true
  | c :: _ => isBreak c

/-- Whether the text starts with three of `c` that stand alone. -/
def atMarker (c : Char) : List Char → Bool
  | x :: y :: z :: rest => x = c && y = c && z = c && atSpace rest
  | _ => false

/-- Whether the text starts with a marker between documents. -/
def atDocumentMarker (text : List Char) : Bool :=
  atMarker '-' text || atMarker '.' text

/-- Pass over a line break, if the text is at one. -/
def Cursor.skipBreak (cursor : Cursor) : Cursor :=
  match cursor.rest with
  | '\r' :: '\n' :: rest => ⟨rest, cursor.mark.nextLineOfTwo⟩
  | c :: rest => if isBreak c then ⟨rest, cursor.mark.nextLine c⟩ else cursor
  | [] => cursor

/-- Pass over blanks and a comment up to the end of the line. -/
def Cursor.skipComment (cursor : Cursor) : Cursor :=
  let cursor := cursor.skipWhile isBlank
  if cursor.rest.head? = some '#' then cursor.skipWhile fun c => !isBreak c else cursor

/-- Whether a document may hold a character at all: tabs, breaks and printable characters. -/
def isAllowed (c : Char) : Bool :=
  let n := c.toNat
  c = '\t' || c = '\n' || c = '\r' || c = '\u0085'
    || (0x20 ≤ n && n ≤ 0x7e) || (0xa0 ≤ n && n ≤ 0xfffd) || 0x10000 ≤ n

end Packaging.Yaml
