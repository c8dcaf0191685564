import Packaging.Document.Yaml.Scalar
import Packaging.Document.Yaml.Token

/-! From YAML text to tokens. The state tracks the indentation of the open blocks and, for each
open flow collection, the place where a key without a mark of its own may have started.
-/

namespace Packaging.Yaml

/-- A place where a key may have started: it becomes one if a colon follows on the same line. -/
structure SimpleKey where
  /-- Nothing but a key can stand there. -/
  required : Bool
  /-- How many tokens stand before it. -/
  number : Nat
  mark : Mark

/-- The state between two tokens. -/
structure Scanner where
  cursor : Cursor
  /-- The tokens so far, in reverse, and their count. -/
  tokens : List Token := []
  count : Nat := 0
  /-- The column of the innermost block, and those of the blocks around it. -/
  indent : Int := -1
  outer : List Int := []
  /-- The possible key of the innermost collection, and those of the flow collections around
  it. -/
  key : Option SimpleKey := none
  outerKeys : List (Option SimpleKey) := []
  /-- Whether a key without a mark may start here. -/
  keyAllowed : Bool := true

namespace Scanner

def inFlow (s : Scanner) : Bool :=
  !s.outerKeys.isEmpty

def emit (s : Scanner) (token : Token) : Scanner :=
  { s with tokens := token :: s.tokens, count := s.count + 1 }

/-- Insert a token so that `number` tokens stand before it. -/
def emitAt (s : Scanner) (number : Nat) (token : Token) : Scanner :=
  let later := s.count - number
  { s with
    tokens := s.tokens.take later ++ token :: s.tokens.drop later
    count := s.count + 1 }

/-- Pass over `count` characters of the line. -/
def skip (s : Scanner) (count : Nat) : Scanner :=
  { s with cursor := s.cursor.skip count }

/-! ### Simple keys -/

/-- Whether a possible key can no longer be one: it ends with its line, and it has no more than
1024 bytes.
-/
def SimpleKey.isStale (key : SimpleKey) (mark : Mark) : Bool :=
  key.mark.line < mark.line || key.mark.index + 1024 < mark.index

/-- Give a possible key up, unless nothing but a key can stand there. -/
def SimpleKey.drop? (key : Option SimpleKey) : Option (Option SimpleKey) :=
  if key.any (·.required) then none else some none

/-- Give up the possible keys that the position has left behind. -/
def dropStale (s : Scanner) : Option Scanner := do
  let check (key : Option SimpleKey) : Option (Option SimpleKey) :=
    if key.any (SimpleKey.isStale · s.cursor.mark) then SimpleKey.drop? key else some key
  let key ← check s.key
  let outerKeys ← s.outerKeys.mapM check
  return { s with key, outerKeys }

/-- Give up the possible key of the innermost collection. -/
def dropKey (s : Scanner) : Option Scanner :=
  (SimpleKey.drop? s.key).map fun key => { s with key }

/-- Note that a key may start here, if one is allowed. -/
def noteKey (s : Scanner) : Option Scanner :=
  if s.keyAllowed then do
    let s ← s.dropKey
    let required := !s.inFlow && s.indent = s.cursor.mark.column
    return { s with key := some { required, number := s.count, mark := s.cursor.mark } }
  else some s

/-! ### Indentation -/

/-- Open a block at a deeper column, its start standing after `number` tokens or at the end. -/
def openBlock (s : Scanner) (column : Nat) (number : Option Nat) (token : Token) : Scanner :=
  if s.inFlow ∨ (column : Int) ≤ s.indent then s
  else
    let s := { s with outer := s.indent :: s.outer, indent := column }
    match number with
    | none => s.emit token
    | some number => s.emitAt number token

/-- The blocks that stay open at `column`: each deeper one is closed by a token of its own. -/
def closeBlocks (column : Int) (indent : Int) (tokens : List Token) (count : Nat)
    : List Int → Int × List Int × List Token × Nat
  | [] => (indent, [], tokens, count)
  | enclosing :: outer =>
    if column < indent then
      closeBlocks column enclosing (.blockEnd :: tokens) (count + 1) outer
    else (indent, enclosing :: outer, tokens, count)

/-- Close the blocks deeper than `column`. Inside flow collections indentation has no meaning.
-/
def closeTo (s : Scanner) (column : Int) : Scanner :=
  if s.inFlow then s
  else
    let (indent, outer, tokens, count) :=
      closeBlocks column s.indent s.tokens s.count s.outer
    { s with indent, outer, tokens, count }

/-! ### Blanks, comments and line breaks -/

/-- Pass over what may stand between two tokens. A tab is refused where it would be
indentation, and after a line break of a block a key may start. A mark of byte order may open the
text, where it takes up a column.
-/
def skipSpace (inFlow : Bool) (keyAllowed : Bool) (comment : Bool) (mark : Mark)
    : List Char → Cursor × Bool
  | [] => (⟨[], mark⟩, keyAllowed)
  | '\r' :: '\n' :: rest =>
    skipSpace inFlow (keyAllowed || !inFlow) false mark.nextLineOfTwo rest
  | c :: rest =>
    if isBreak c then skipSpace inFlow (keyAllowed || !inFlow) false (mark.nextLine c) rest
    else if comment ∨ c = '#' then skipSpace inFlow keyAllowed true (mark.next c) rest
    else if c = ' ' ∨ (c = '\ufeff' ∧ mark.index = 0)
        ∨ (c = '\t' ∧ (inFlow ∨ ¬keyAllowed)) then
      skipSpace inFlow keyAllowed false (mark.next c) rest
    else (⟨c :: rest, mark⟩, keyAllowed)

/-- Pass over what stands before the next token. -/
def toNextToken (s : Scanner) : Scanner :=
  let (cursor, keyAllowed) :=
    skipSpace s.inFlow s.keyAllowed false s.cursor.mark s.cursor.rest
  { s with cursor, keyAllowed }

/-! ### Directives and document markers -/

/-- The characters that a tag may hold besides letters and digits. -/
def isTagChar (verbatim : Bool) (c : Char) : Bool :=
  isNameChar c || ";/?:@&=+$.%!~*'()".toList.contains c
    || (verbatim && (c = ',' || c = '[' || c = ']'))

/-- The count of octets that a leading octet announces. -/
def octetCount (octet : Nat) : Nat :=
  if octet < 0x80 then 1
  else if 0xc0 ≤ octet ∧ octet < 0xe0 then 2
  else if 0xe0 ≤ octet ∧ octet < 0xf0 then 3
  else if 0xf0 ≤ octet ∧ octet < 0xf8 then 4
  else 0

/-- The octets of a tag with its escapes resolved. `awaited` octets of an escaped character must
follow.
-/
def tagOctets? (awaited : Nat) : List Char → Option (List Char)
  | [] => if awaited = 0 then some [] else none
  | '%' :: a :: b :: rest => do
    let octet ← hexValue? [a, b]
    let width := octetCount octet
    guard (if awaited = 0 then 0 < width else 0x80 ≤ octet ∧ octet < 0xc0)
    let octets ← tagOctets? (if awaited = 0 then width - 1 else awaited - 1) rest
    return Char.ofNat octet :: octets
  | c :: rest =>
    if c = '%' ∨ awaited ≠ 0 then none else (tagOctets? 0 rest).map (c :: ·)

/-- The tag characters at the front, resolved. Those of `lead` stand before them and make an
empty rest acceptable.
-/
def readTagChars (verbatim : Bool) (lead : List Char) (cursor : Cursor)
    : Option (List Char × Cursor) := do
  let (taken, cursor) := cursor.takeWhile (isTagChar verbatim)
  guard (!(taken.isEmpty && lead.isEmpty))
  let octets ← tagOctets? 0 taken
  return (lead.drop 1 ++ octets, cursor)

/-- The handle at the front: an exclamation mark, then letters and digits, then perhaps a second
mark.
-/
def readHandle (cursor : Cursor) : Option (List Char × Cursor) := do
  guard (cursor.rest.head? = some '!')
  let (name, cursor) := (cursor.skip 1).takeWhile isNameChar
  if cursor.rest.head? = some '!' then some ('!' :: name ++ ['!'], cursor.skip 1)
  else some ('!' :: name, cursor)

/-- A number of a version: one to nine digits. -/
def readVersionNumber (cursor : Cursor) : Option (Nat × Cursor) := do
  let (digits, cursor) := cursor.takeWhile Char.isDigit
  guard (!digits.isEmpty && digits.length ≤ 9)
  let number := digits.foldl (fun n c => 10 * n + (c.toNat - '0'.toNat)) 0
  return (number, cursor)

/-- A directive, after its percent sign. -/
def readDirective (cursor : Cursor) : Option (Token × Cursor) := do
  let (name, cursor) := cursor.takeWhile isNameChar
  guard (!name.isEmpty && atSpace cursor.rest)
  if name = "YAML".toList then do
    let (major, cursor) ← readVersionNumber (cursor.skipWhile isBlank)
    guard (cursor.rest.head? = some '.')
    let (minor, cursor) ← readVersionNumber (cursor.skip 1)
    return (.version major minor, cursor)
  else if name = "TAG".toList then do
    let (handle, cursor) ← readHandle (cursor.skipWhile isBlank)
    guard (handle = ['!'] || handle.getLast? = some '!')
    guard (cursor.rest.head?.any isBlank)
    let (lead, cursor) ← readTagChars true [] (cursor.skipWhile isBlank)
    guard (atSpace cursor.rest)
    return (.tagDirective handle lead, cursor)
  else none

/-- Close all blocks and take a token that stands between documents. -/
def betweenDocuments (s : Scanner) : Option Scanner :=
  (s.closeTo (-1)).dropKey.map fun s => { s with keyAllowed := false }

/-- Take a directive, which has its line for itself. -/
def takeDirective (s : Scanner) : Option Scanner := do
  let s ← s.betweenDocuments
  let (token, cursor) ← readDirective (s.cursor.skip 1)
  let cursor := cursor.skipComment
  guard (atLineEnd cursor.rest)
  return { s with cursor := cursor.skipBreak }.emit token

def takeMarker (s : Scanner) (token : Token) : Option Scanner :=
  s.betweenDocuments.map fun s => (s.skip 3).emit token

/-! ### Collections -/

/-- Take the opening bracket of a flow collection, which may itself be a key. -/
def openFlow (s : Scanner) (token : Token) : Option Scanner := do
  let s ← s.noteKey
  return { s with key := none, outerKeys := s.key :: s.outerKeys, keyAllowed := true }.skip 1
    |>.emit token

/-- Take the closing bracket of a flow collection. -/
def closeFlow (s : Scanner) (token : Token) : Option Scanner := do
  let s ← s.dropKey
  let s :=
    match s.outerKeys with
    | [] => s
    | key :: outerKeys => { s with key, outerKeys }
  return ({ s with keyAllowed := false }.skip 1).emit token

/-- Take a comma of a flow collection. -/
def takeFlowEntry (s : Scanner) : Option Scanner := do
  let s ← s.dropKey
  return ({ s with keyAllowed := true }.skip 1).emit .flowEntry

/-- Take the dash of a block entry, opening its sequence if it is the first one. -/
def takeBlockEntry (s : Scanner) : Option Scanner := do
  guard (s.inFlow || s.keyAllowed)
  let s := s.openBlock s.cursor.mark.column none .blockSequenceStart
  let s ← s.dropKey
  return ({ s with keyAllowed := true }.skip 1).emit .blockEntry

/-- Take the question mark of a key. -/
def takeKey (s : Scanner) : Option Scanner := do
  guard (s.inFlow || s.keyAllowed)
  let s := s.openBlock s.cursor.mark.column none .blockMappingStart
  let s ← s.dropKey
  return ({ s with keyAllowed := !s.inFlow }.skip 1).emit .key

/-- Take the colon of a value. What was noted as a possible key becomes one. -/
def takeValue (s : Scanner) : Option Scanner :=
  match s.key with
  | some key =>
    let s := s.emitAt key.number .key
    let s := s.openBlock key.mark.column (some key.number) .blockMappingStart
    some (({ s with key := none, keyAllowed := false }.skip 1).emit .value)
  | none => do
    guard (s.inFlow || s.keyAllowed)
    let s := s.openBlock s.cursor.mark.column none .blockMappingStart
    return ({ s with keyAllowed := !s.inFlow }.skip 1).emit .value

/-! ### Nodes -/

/-- Note a possible key and forbid the next one, as before every token that starts a node. -/
def startNode (s : Scanner) : Option Scanner :=
  s.noteKey.map fun s => { s with keyAllowed := false }

/-- Take the name of an alias or of an anchor. -/
def takeName (s : Scanner) (token : List Char → Token) : Option Scanner := do
  let s ← s.startNode
  let (name, cursor) := (s.cursor.skip 1).takeWhile isNameChar
  guard (!name.isEmpty)
  guard (atSpace cursor.rest || cursor.rest.head?.any "?:,]\x7d%@\x60".toList.contains)
  return { s with cursor }.emit (token name)

/-- A tag: one given in full between angle brackets, or a handle and a suffix. -/
def readTag (cursor : Cursor) : Option (Token × Cursor) := do
  match cursor.rest with
  | _ :: '<' :: _ =>
    let (suffix, cursor) ← readTagChars true [] (cursor.skip 2)
    guard (cursor.rest.head? = some '>')
    return (.tag [] suffix, cursor.skip 1)
  | _ =>
    let (handle, after) ← readHandle cursor
    if 1 < handle.length ∧ handle.getLast? = some '!' then
      let (suffix, cursor) ← readTagChars false [] after
      return (.tag handle suffix, cursor)
    else
      let (suffix, cursor) ← readTagChars false handle after
      if suffix.isEmpty then return (.tag [] ['!'], cursor)
      else return (.tag ['!'] suffix, cursor)

/-- Take a tag, which a blank ends, or a comma inside a flow collection. -/
def takeTag (s : Scanner) : Option Scanner := do
  let s ← s.startNode
  let (token, cursor) ← readTag s.cursor
  guard (atSpace cursor.rest || (s.inFlow && cursor.rest.head? = some ','))
  return { s with cursor }.emit token

/-- The header of a block scalar: chomping and indentation in either order, the latter zero if
not given.
-/
def readBlockHeader (cursor : Cursor) : Option (Chomping × Nat × Cursor) :=
  let chomping? : List Char → Option Chomping
    | '+' :: _ => some .keep
    | '-' :: _ => some .strip
    | _ => none
  let indent? : List Char → Option Nat
    | c :: _ => if c.isDigit then some (c.toNat - '0'.toNat) else none
    | [] => none
  match chomping? cursor.rest, indent? cursor.rest with
  | some chomping, _ =>
    let cursor := cursor.skip 1
    match indent? cursor.rest with
    | some 0 => none
    | some indent => some (chomping, indent, cursor.skip 1)
    | none => some (chomping, 0, cursor)
  | none, some 0 => none
  | none, some indent =>
    let cursor := cursor.skip 1
    match chomping? cursor.rest with
    | some chomping => some (chomping, indent, cursor.skip 1)
    | none => some (.clip, indent, cursor)
  | none, none => some (.clip, 0, cursor)

def takeBlockScalar (s : Scanner) (literal : Bool) : Option Scanner := do
  let s ← s.dropKey
  let (chomping, increment, cursor) ← readBlockHeader (s.cursor.skip 1)
  let cursor := cursor.skipComment
  guard (atLineEnd cursor.rest)
  let cursor := cursor.skipBreak
  let indent := if increment = 0 then 0 else (max s.indent 0).toNat + increment
  let style : BlockStyle := { literal, chomping, parentIndent := s.indent }
  let scalar ← readBlock style { indent } cursor.mark cursor.rest
  return { s with cursor := scalar.cursor, keyAllowed := true }.emit
    (.scalar scalar.content false)

def takeQuoted (s : Scanner) (read : Mark → List Char → Option ScalarEnd) : Option Scanner := do
  let s ← s.startNode
  let cursor := s.cursor.skip 1
  let scalar ← read cursor.mark cursor.rest
  return { s with cursor := scalar.cursor }.emit (.scalar scalar.content false)

/-- Take a plain scalar. After one that ends before a later line a key may start. -/
def takePlain (s : Scanner) : Option Scanner := do
  let s ← s.startNode
  let scalar ← readPlain s.inFlow (s.indent + 1) [] {} s.cursor.mark s.cursor.rest
  return { s with cursor := scalar.cursor, keyAllowed := scalar.broken }.emit
    (.scalar scalar.content true)

/-! ### The whole text -/

/-- Whether a plain scalar may start with `c`. -/
def startsPlain (inFlow : Bool) (c : Char) (rest : List Char) : Bool :=
  let indicators := "-?:,[]\x7b\x7d#&*!|>'\"%@\x60".toList
  (!isBlank c && !isBreak c && !indicators.contains c)
    || (c = '-' && !rest.head?.any isBlank)
    || (!inFlow && (c = '?' || c = ':') && !atSpace rest)

/-- Take the token that starts with `c`. -/
def takeToken (s : Scanner) (c : Char) (rest : List Char) : Option Scanner :=
  let text := c :: rest
  let lineStart : Bool := s.cursor.mark.column = 0
  let marked := s.inFlow || atSpace rest
  if lineStart && c = '%' then s.takeDirective
  else if lineStart && atMarker '-' text then s.takeMarker .documentStart
  else if lineStart && atMarker '.' text then s.takeMarker .documentEnd
  else if c = '[' then s.openFlow .flowSequenceStart
  else if c = '\x7b' then s.openFlow .flowMappingStart
  else if c = ']' then s.closeFlow .flowSequenceEnd
  else if c = '\x7d' then s.closeFlow .flowMappingEnd
  else if c = ',' then s.takeFlowEntry
  else if c = '-' && atSpace rest then s.takeBlockEntry
  else if c = '?' && marked then s.takeKey
  else if c = ':' && marked then s.takeValue
  else if c = '*' then s.takeName .alias
  else if c = '&' then s.takeName .anchor
  else if c = '!' then s.takeTag
  else if c = '|' && !s.inFlow then s.takeBlockScalar true
  else if c = '>' && !s.inFlow then s.takeBlockScalar false
  else if c = '\'' then s.takeQuoted (readSingle [] {})
  else if c = '"' then s.takeQuoted (readDouble [] {})
  else if startsPlain s.inFlow c rest then s.takePlain
  else none

/-- Close what is still open at the end of the text. -/
def finish (s : Scanner) : Option (List Token) :=
  (s.closeTo (-1)).dropKey.map (·.tokens.reverse)

/-- Take all tokens that remain. Every token has characters of its own, so each step leaves a
shorter text; a step that did not would end the reading.
-/
def run (s : Scanner) : Option (List Token) :=
  match s.toNextToken.dropStale with
  | none => none
  | some ready =>
    let ready := ready.closeTo ready.cursor.mark.column
    match ready.cursor.rest with
    | [] => ready.finish
    | c :: rest =>
      match ready.takeToken c rest with
      | none => none
      | some next =>
        if _h : next.cursor.rest.length < s.cursor.rest.length then run next else none
termination_by s.cursor.rest.length

end Scanner

def tokens? (text : List Char) : Option (List Token) :=
  if text.all isAllowed then Scanner.run { cursor := ⟨text, {}⟩ } else none

end Packaging.Yaml
