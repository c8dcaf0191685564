import Packaging.Document.Yaml.Cursor

/-! Reading the content of YAML scalars: plain, quoted and block ones. Each reader walks the text
once and folds the line breaks it meets.
-/

namespace Packaging.Yaml

/-- What has been read of a scalar and not yet been joined to it: blanks, or line breaks. Lists
stand in reverse.
-/
structure Gap where
  blanks : List Char := []
  broken : Bool := false
  first : Option Char := none
  more : List Char := []

/-- Whether the gap is still to be opened. -/
def Gap.isEmpty (gap : Gap) : Bool :=
  gap.blanks.isEmpty && !gap.broken

/-- A blank more. Blanks after a break are indentation. -/
def Gap.blank (gap : Gap) (c : Char) : Gap :=
  if gap.broken then gap else { gap with blanks := c :: gap.blanks }

/-- A line break more. Blanks before the first one are dropped. -/
def Gap.break (gap : Gap) (c : Char) : Gap :=
  if gap.broken then { gap with more := normalBreak c :: gap.more }
  else { broken := true, first := some (normalBreak c) }

/-- The gap as it enters the scalar, in reverse: one line break folds into a space, and of
several the first is dropped.
-/
def Gap.folded (gap : Gap) : List Char :=
  if ¬gap.broken then gap.blanks
  else if gap.first = some '\n' then if gap.more.isEmpty then [' '] else gap.more
  else gap.more ++ gap.first.toList

/-- A scalar as read: its content, the place after it, and whether that is on a later line than
its last character.
-/
structure ScalarEnd where
  content : List Char
  cursor : Cursor
  broken : Bool := false

/-! ### Plain scalars -/

/-- Whether a character is a bracket or a comma of a flow collection. -/
def isFlowIndicator (c : Char) : Bool :=
  c = ',' || c = '[' || c = ']' || c = '\x7b' || c = '\x7d'

/-- Whether a plain scalar ends before the character `c`. -/
def endsPlain (flow : Bool) (c : Char) (rest : List Char) : Bool :=
  (c = ':' && atSpace rest) || (flow && isFlowIndicator c)

/-- Whether `c` is a colon that a flow collection allows neither to end nor to continue a plain
scalar.
-/
def isStrayColon (flow : Bool) (c : Char) (rest : List Char) : Bool :=
  flow && c = ':' && rest.head?.any fun next => isFlowIndicator next || next = '?'

/-- Whether a plain scalar ends before a character that follows a gap: at a comment, at a marker
or at a line that is indented too little.
-/
def endsAfterGap (flow : Bool) (indent : Int) (column : Nat) (text : List Char) : Bool :=
  (!flow && (column : Int) < indent) || (column = 0 && atDocumentMarker text)
    || text.head? = some '#'

/-- Read a plain scalar. `indent` is the least column of its further lines. -/
def readPlain (flow : Bool) (indent : Int) (content : List Char) (gap : Gap) (mark : Mark)
    : List Char → Option ScalarEnd
  | [] => some ⟨content.reverse, ⟨[], mark⟩, gap.broken⟩
  | '\r' :: '\n' :: rest =>
    readPlain flow indent content (gap.break '\n') mark.nextLineOfTwo rest
  | c :: rest =>
    if isBlank c then
      if gap.broken ∧ c = '\t' ∧ (mark.column : Int) < indent then none
      else readPlain flow indent content (gap.blank c) (mark.next c) rest
    else if isBreak c then
      readPlain flow indent content (gap.break c) (mark.nextLine c) rest
    else if !gap.isEmpty && endsAfterGap flow indent mark.column (c :: rest) then
      some ⟨content.reverse, ⟨c :: rest, mark⟩, gap.broken⟩
    else if isStrayColon flow c rest then none
    else if endsPlain flow c rest then
      some ⟨content.reverse, ⟨c :: rest, mark⟩, gap.broken⟩
    else readPlain flow indent (c :: (gap.folded ++ content)) {} (mark.next c) rest

/-! ### Quoted scalars -/

def hexValue? (digits : List Char) : Option Nat :=
  digits.foldlM (fun n c =>
    if c.isDigit then some (16 * n + (c.toNat - '0'.toNat))
    else if 'a' ≤ c ∧ c ≤ 'f' then some (16 * n + (c.toNat - 'a'.toNat + 10))
    else if 'A' ≤ c ∧ c ≤ 'F' then some (16 * n + (c.toNat - 'A'.toNat + 10))
    else none) 0

/-- The character of a code point given by hexadecimal digits. -/
def hexChar? (digits : List Char) : Option Char :=
  (hexValue? digits).bind fun n =>
    if (0xd800 ≤ n ∧ n ≤ 0xdfff) ∨ 0x10ffff < n then none else some (Char.ofNat n)

/-- The character that a single one stands for after a backslash. -/
def escapedChar? : Char → Option Char
  | '0' => some '\x00'
  | 'a' => some '\x07'
  | 'b' => some '\x08'
  | 't' => some '\t'
  | '\t' => some '\t'
  | 'n' => some '\n'
  | 'v' => some '\x0b'
  | 'f' => some '\x0c'
  | 'r' => some '\r'
  | 'e' => some '\x1b'
  | ' ' => some ' '
  | '"' => some '"'
  | '/' => some '/'
  | '\\' => some '\\'
  | 'N' => some '\u0085'
  | '_' => some '\u00a0'
  | 'L' => some '\u2028'
  | 'P' => some '\u2029'
  | _ => none

/-- Read a scalar in single quotes, after the opening one. A quote is written twice. -/
def readSingle (content : List Char) (gap : Gap) (mark : Mark) : List Char → Option ScalarEnd
  | [] => none
  | '\r' :: '\n' :: rest => readSingle content (gap.break '\n') mark.nextLineOfTwo rest
  | '\'' :: '\'' :: rest =>
    readSingle ('\'' :: (gap.folded ++ content)) {} (mark.nextAscii 2) rest
  | c :: rest =>
    if mark.column = 0 ∧ atDocumentMarker (c :: rest) then none
    else if isBlank c then readSingle content (gap.blank c) (mark.next c) rest
    else if isBreak c then readSingle content (gap.break c) (mark.nextLine c) rest
    else if c = '\'' then
      some ⟨(gap.folded ++ content).reverse, ⟨rest, mark.next c⟩, false⟩
    else readSingle (c :: (gap.folded ++ content)) {} (mark.next c) rest

/-- Read a scalar in double quotes, after the opening one. A backslash before a line break joins
the lines.
-/
def readDouble (content : List Char) (gap : Gap) (mark : Mark) : List Char → Option ScalarEnd
  | [] => none
  | '\r' :: '\n' :: rest => readDouble content (gap.break '\n') mark.nextLineOfTwo rest
  | '\\' :: '\r' :: '\n' :: rest =>
    readDouble (gap.folded ++ content) { broken := true } (mark.next '\\').nextLineOfTwo rest
  | '\\' :: 'x' :: a :: b :: rest =>
    (hexChar? [a, b]).bind fun c =>
      readDouble (c :: (gap.folded ++ content)) {} (mark.nextAscii 4) rest
  | '\\' :: 'u' :: a :: b :: c :: d :: rest =>
    (hexChar? [a, b, c, d]).bind fun c =>
      readDouble (c :: (gap.folded ++ content)) {} (mark.nextAscii 6) rest
  | '\\' :: 'U' :: a :: b :: c :: d :: e :: f :: g :: h :: rest =>
    (hexChar? [a, b, c, d, e, f, g, h]).bind fun c =>
      readDouble (c :: (gap.folded ++ content)) {} (mark.nextAscii 10) rest
  | '\\' :: c :: rest =>
    if isBreak c then
      readDouble (gap.folded ++ content) { broken := true } ((mark.next '\\').nextLine c) rest
    else
      (escapedChar? c).bind fun c =>
        readDouble (c :: (gap.folded ++ content)) {} (mark.nextAscii 2) rest
  | c :: rest =>
    if mark.column = 0 ∧ atDocumentMarker (c :: rest) then none
    else if isBlank c then readDouble content (gap.blank c) (mark.next c) rest
    else if isBreak c then readDouble content (gap.break c) (mark.nextLine c) rest
    else if c = '\\' then none
    else if c = '"' then
      some ⟨(gap.folded ++ content).reverse, ⟨rest, mark.next c⟩, false⟩
    else readDouble (c :: (gap.folded ++ content)) {} (mark.next c) rest

/-! ### Block scalars -/

/-- What becomes of the line breaks at the end of a block scalar. -/
inductive Chomping where
  | strip
  | clip
  | keep
deriving DecidableEq

/-- How a block scalar is to be read: its lines kept or folded, and the indentation of the block
around it.
-/
structure BlockStyle where
  literal : Bool
  chomping : Chomping
  parentIndent : Int

/-- What has been read of a block scalar. Lists stand in reverse, and an indentation of zero is
still to be found.
-/
structure BlockState where
  indent : Nat
  widest : Nat := 0
  content : List Char := []
  lineBreak : Option Char := none
  breaks : List Char := []
  blankLine : Bool := false
  inLine : Bool := false

/-- The indentation once the first line with text is reached: that of the widest line so far,
yet deeper than the block around it.
-/
def BlockState.settle (state : BlockState) (style : BlockStyle) : BlockState :=
  if state.indent = 0 then
    { state with indent := max 1 (max state.widest (style.parentIndent + 1).toNat) }
  else state

/-- Open a line of text with its first character, joining the breaks before it. A single break
between two lines that start with text folds into a space.
-/
def BlockState.openLine (state : BlockState) (literal : Bool) (c : Char) : BlockState :=
  let fold := !literal && state.lineBreak = some '\n' && !state.blankLine && !isBlank c
  let joint :=
    if fold then if state.breaks.isEmpty then [' '] else []
    else state.lineBreak.toList
  { state with
    content := state.breaks ++ (joint ++ state.content)
    lineBreak := none
    breaks := []
    blankLine := isBlank c
    inLine := true }

/-- The content once the block is left. -/
def BlockState.close (state : BlockState) (chomping : Chomping) : List Char :=
  let content :=
    if chomping = .strip then state.content else state.lineBreak.toList ++ state.content
  (if chomping = .keep then state.breaks ++ content else content).reverse

/-- Whether a character in the margin of a line belongs to the indentation still to be eaten. -/
def BlockState.inMargin (state : BlockState) (column : Nat) : Bool :=
  state.indent = 0 || column < state.indent

/-- A line break inside the block: it ends a line of text, or it is an empty line. -/
def BlockState.break (state : BlockState) (column : Nat) (c : Char) : BlockState :=
  if state.inLine then
    { state with lineBreak := some (normalBreak c), inLine := false, widest := 0 }
  else
    { state with
      breaks := normalBreak c :: state.breaks
      widest := max state.widest column }

/-- Read the lines of a block scalar, after its header. -/
def readBlock (style : BlockStyle) (state : BlockState) (mark : Mark)
    : List Char → Option ScalarEnd
  | [] => some ⟨state.close style.chomping, ⟨[], mark⟩, false⟩
  | '\r' :: '\n' :: rest =>
    readBlock style (state.break mark.column '\n') mark.nextLineOfTwo rest
  | c :: rest =>
    if state.inLine ∧ ¬isBreak c then
      readBlock style { state with content := c :: state.content } (mark.next c) rest
    else if ¬state.inLine ∧ c = ' ' ∧ state.inMargin mark.column then
      readBlock style state (mark.next c) rest
    else if ¬state.inLine ∧ c = '\t' ∧ state.inMargin mark.column then none
    else if isBreak c then
      readBlock style (state.break mark.column c) (mark.nextLine c) rest
    else
      let state := { state with widest := max state.widest mark.column }.settle style
      if mark.column = state.indent then
        let state := state.openLine style.literal c
        readBlock style { state with content := c :: state.content } (mark.next c) rest
      else some ⟨state.close style.chomping, ⟨c :: rest, mark⟩, false⟩

end Packaging.Yaml
