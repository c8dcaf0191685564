import Packaging.Git.Config.Basic
import Packaging.Git.Identifier
import Packaging.Text.Pieces
import Packaging.Text.Search

/-! Reading of configuration: sections of settings, line by line. A text that breaks the grammar
anywhere has no settings at all.
-/

namespace Packaging.Git.Config

open Text.Integer (isBlank)

def isNameChar (c : Char) : Bool :=
  c.isAlphanum || c = '-'

/-- A subsection between its quotes, and what stands after the bracket that closes the header. -/
def subsection (read : List Char) : List Char → Option (List Char × List Char)
  | [] => none
  | '\x00' :: _ => none
  | '"' :: ']' :: rest => some (read.reverse, rest)
  | '"' :: _ => none
  | '\\' :: c :: rest => if c = '\x00' then none else subsection (c :: read) rest
  | c :: rest => subsection (c :: read) rest

/-- A header after its bracket: the name of the section, and the rest of the line. -/
def header (read : List Char) : List Char → Option (List Char × List Char)
  | [] => none
  | ']' :: rest => if read.isEmpty then none else some (read.reverse, rest)
  | c :: rest =>
    if isBlank c then
      match rest.dropWhile isBlank with
      | '"' :: text =>
        (subsection [] text).map fun (name, rest) => (read.reverse ++ '.' :: name, rest)
      | _ => none
    else if isNameChar c || c = '.' then header (c.toLower :: read) rest
    else none

/-- The text up to a comment, and whether it ends inside quotes. `previous` is the character
before the text, and `escaped` tells whether an odd number of backslashes stands there.
-/
def beforeComment (quoted escaped : Bool) (previous : Option Char)
    : List Char → List Char × Bool
  | [] => ([], quoted)
  | c :: rest =>
    let quoted := if c = '"' && previous ≠ some '\\' then !quoted else quoted
    if (c = ';' || c = '#') && !quoted && !escaped then ([], quoted)
    else
      let (text, ends) := beforeComment quoted (c = '\\' && !escaped) (some c) rest
      (c :: text, ends)

/-- A line without its comment and the blanks at its end, and whether it ends inside quotes. What
stands after a zero character does not count.
-/
def withoutComment (quoted : Bool) (line : List Char) : List Char × Bool :=
  let (text, ends) := beforeComment quoted false none (FileText.untilZero line)
  (FileText.trimRight text, ends)

/-- The character that an escape stands for. -/
def escape? : Char → Option Char
  | 'n' => some '\n'
  | 't' => some '\t'
  | 'b' => some '\x08'
  | '"' => some '"'
  | '\\' => some '\\'
  | _ => none

/-- The value of a line, and whether it goes on in the next line. -/
def unescape : List Char → Option (List Char × Bool)
  | [] => some ([], false)
  | '"' :: rest => unescape rest
  | ['\\'] => some ([], true)
  | '\\' :: c :: rest => do
    let meant ← escape? c
    let (text, more) ← unescape rest
    return (meant :: text, more)
  | c :: rest => do
    let (text, more) ← unescape rest
    return (c :: text, more)

/-- The rest of a value on the lines that follow, and the lines after it. A line that begins with a
zero character ends the value.
-/
def continued (quoted : Bool) : List (List Char) → Option (List Char × List (List Char))
  | [] => some ([], [])
  | line :: rest =>
    let (text, ends) := withoutComment quoted line
    if line.head? = some '\x00' then some ([], rest)
    else if text.isEmpty then continued ends rest
    else
      match unescape text with
      | none => none
      | some (value, false) => some (value, rest)
      | some (value, true) =>
        (continued ends rest).map fun (more, after) => (value ++ more, after)

/-- A setting on a line: its name, its value, and the lines after it. -/
def assignment? (line : List Char) (rest : List (List Char))
    : Option (List Char × Option (List Char) × List (List Char)) :=
  let (text, quoted) := withoutComment false line
  let name := text.takeWhile isNameChar
  if name.isEmpty then none
  else
    match (text.dropWhile isNameChar).dropWhile isBlank with
    | [] => some (name, none, rest)
    | '=' :: value =>
      match unescape (value.dropWhile isBlank) with
      | none => none
      | some (value, false) => some (name, some value, rest)
      | some (value, true) =>
        (continued quoted rest).map fun (more, after) => (name, some (value ++ more), after)
    | _ => none

/-- The setting of a name in a section. Names are compared in lower case. -/
def setting (inSection : Option (List Char)) (name : List Char) (value : Option (List Char))
    : Setting :=
  let name := name.map Char.toLower
  let key := match inSection with
    | some heading => heading ++ '.' :: name
    | none => name
  ⟨FileText.ofCharacters key, value⟩

/-- The size of what is left to read. -/
def size : List (List Char) → Nat
  | [] => 0
  | line :: rest => line.length + 1 + size rest

/-- Whether a line of blanks may stand alone. One that begins with another blank than these counts
as a setting without a name.
-/
def isBlankLine (line : List Char) : Bool :=
  line.head?.all (· ∈ [' ', '\t', '\r'])

/-- The settings of lines in a section. A line may go on after a header, and then it is not
`whole`.
-/
def ofLines (inSection : Option (List Char)) (whole : Bool) : List (List Char) → Option Config
  | [] => some []
  | line :: rest =>
    match line.dropWhile isBlank with
    | [] => if whole && !isBlankLine line then none else ofLines inSection true rest
    | '[' :: text =>
      match header [] text with
      | none => none
      | some (name, after) =>
        if after.length < line.length then ofLines (some name) false (after :: rest) else none
    | ';' :: _ => ofLines inSection true rest
    | '#' :: _ => ofLines inSection true rest
    | text =>
      match assignment? text rest with
      | none => none
      | some (name, value, after) =>
        if size after ≤ size rest then
          (ofLines inSection true after).map (setting inSection name value :: ·)
        else none
termination_by lines => size lines
decreasing_by
  all_goals simp only [size] at *
  all_goals omega

/-- A text without the mark of its encoding at its front. -/
def withoutMark (text : List Char) : List Char :=
  (Text.afterFront? (FileText.characters "\ufeff".toUTF8) text).getD text

/-- The settings of a file. One that begins with a zero character has none. -/
def read? (content : List Char) : Option Config :=
  if content.head? = some '\x00' then some []
  else ofLines none true (Text.pieces (· = '\n') (withoutMark content))

end Packaging.Git.Config
