/-! Patterns with wildcards. A pattern is read into pieces, and each piece takes some of a text from
the front in every way that it can.
-/

namespace Packaging.Text

/-- A member of a set in brackets. -/
inductive GlobMember where
  | one (c : Char)
  | span (first last : Char)
  | sort (accepts : Char → Bool)

/-- A piece of a pattern. -/
inductive GlobPiece where
  | one (c : Char)
  | any
  | set (negated : Bool) (members : List GlobMember)
  | many (acrossSlashes : Bool)
  | directories

/-- How a pattern is compared. In a pattern of `paths` only a double asterisk leads across a slash.
-/
structure GlobRules where
  paths : Bool := false
  ignoreCase : Bool := false

namespace Glob

/-- The sorts of characters that a set may name. -/
def sort? (name : String) : Option (Char → Bool) :=
  let isPrinted (c : Char) : Bool := '!' ≤ c && c ≤ '~'
  match name with
  | "alnum" => some Char.isAlphanum
  | "alpha" => some Char.isAlpha
  | "blank" => some fun c => c = ' ' || c = '\t'
  | "cntrl" => some fun c => c < ' ' || c = '\x7f'
  | "digit" => some Char.isDigit
  | "graph" => some isPrinted
  | "lower" => some Char.isLower
  | "print" => some fun c => c = ' ' || isPrinted c
  | "punct" => some fun c => isPrinted c && !c.isAlphanum
  | "space" => some fun c => c = ' ' || ('\t' ≤ c && c ≤ '\r')
  | "upper" => some Char.isUpper
  | "xdigit" => some fun c => c.isDigit || ('a' ≤ c.toLower && c.toLower ≤ 'f')
  | _ => none

/-- The name of a sort after its opening, and the text after it. What is not closed by a colon is no
name.
-/
def sortName? (text : List Char) : Option (List Char × List Char) :=
  match (text.takeWhile (· ≠ ']')).reverse, text.dropWhile (· ≠ ']') with
  | ':' :: name, _ :: rest => some (name.reverse, rest)
  | _, _ => none

/-- The last character of a span, after its dash. -/
def spanEnd? : List Char → Option (Char × List Char)
  | '\\' :: c :: rest => some (c, rest)
  | ['\\'] => none
  | c :: rest => some (c, rest)
  | [] => none

/-- The members of a set and the text after its bracket. A bracket that stands first is a member,
and a dash makes a span with the character `previous` before it. No more than `fuel` members are
read.
-/
def members? (first : Bool) (previous : Option Char)
    : (fuel : Nat) → List Char → Option (List GlobMember × List Char)
  | 0, _ => none
  | _, [] => none
  | fuel + 1, c :: rest =>
    let add (member : GlobMember) (previous : Option Char) (rest : List Char) :=
      (members? false previous fuel rest).map fun (members, after) => (member :: members, after)
    if c = ']' && !first then some ([], rest)
    else if c = '\\' then
      match rest with
      | [] => none
      | c :: rest => add (.one c) (some c) rest
    else
      match c, previous, rest with
      | '-', some low, next :: after =>
        if next = ']' then add (.one '-') (some '-') rest
        else (spanEnd? (next :: after)).bind fun (high, after) => add (.span low high) none after
      | '[', _, ':' :: text =>
        match sortName? text with
        | none => if ']' ∈ text then add (.one '[') (some '[') rest else none
        | some (name, after) =>
          (sort? (String.ofList name)).bind fun accepts => add (.sort accepts) none after
      | c, _, _ => add (.one c) (some c) rest

/-- Whether two asterisks stand for directories: a slash or an end on either side. -/
def isBetweenSlashes (previous : Option Char) (rest : List Char) : Bool :=
  previous.all (· = '/')
    && match rest with
      | [] => true
      | '/' :: _ => true
      | '\\' :: '/' :: _ => true
      | _ => false

/-- The pieces of a pattern. An unclosed set and a lone backslash at the end match nothing, and so
the pattern has no pieces. No more than `fuel` pieces are read.
-/
def pieces? (rules : GlobRules) (previous : Option Char)
    : (fuel : Nat) → List Char → Option (List GlobPiece)
  | _, [] => some []
  | 0, _ => none
  | fuel + 1, c :: rest =>
    let add (piece : GlobPiece) (previous : Option Char) (rest : List Char) :=
      (pieces? rules previous fuel rest).map (piece :: ·)
    match c, rest with
    | '\\', [] => none
    | '\\', c :: rest => add (.one c) (some c) rest
    | '?', rest => add .any (some '?') rest
    | '*', rest =>
      let after := rest.dropWhile (· = '*')
      if after.length = rest.length then add (.many (!rules.paths)) (some '*') rest
      else if !rules.paths then add (.many true) (some '*') after
      else if !isBetweenSlashes previous after then add (.many false) (some '*') after
      else
        match after with
        | '/' :: below => add .directories (some '/') below
        | after => add (.many true) (some '*') after
    | '[', rest =>
      let negated := rest.head?.any fun c => c = '!' || c = '^'
      (members? true none (rest.length + 1) (if negated then rest.drop 1 else rest)).bind
        fun (members, after) => add (.set negated members) (some ']') after
    | c, rest => add (.one c) (some c) rest

/-- Whether a member of a set stands for a character. -/
def memberAccepts (rules : GlobRules) (c : Char) (member : GlobMember) : Bool :=
  let inCase (test : Char → Bool) : Bool := test c || (rules.ignoreCase && test c.toUpper)
  match member with
  | .one other => c = other
  | .span first last => inCase fun c => first ≤ c && c ≤ last
  | .sort accepts => inCase accepts

/-- What is left of a text after any number of characters. -/
def suffixes (acrossSlashes : Bool) : List Char → List (List Char)
  | [] => [[]]
  | c :: rest =>
    (c :: rest) :: if acrossSlashes || c ≠ '/' then suffixes acrossSlashes rest else []

/-- What is left of a text after any number of whole directories. -/
def belowDirectories (text : List Char) : List (List Char) :=
  text :: (suffixes true text).filterMap fun
    | '/' :: below => some below
    | _ => none

/-- What may be left of a text after a piece. -/
def rests (rules : GlobRules) (piece : GlobPiece) (text : List Char) : List (List Char) :=
  let folded (c : Char) : Char := if rules.ignoreCase then c.toLower else c
  match piece, text with
  | .many acrossSlashes, text => suffixes acrossSlashes text
  | .directories, text => belowDirectories text
  | _, [] => []
  | .one expected, c :: rest => if folded c = folded expected then [rest] else []
  | .any, c :: rest => if rules.paths && c = '/' then [] else [rest]
  | .set negated members, c :: rest =>
    let found := members.any (memberAccepts rules (folded c))
    if found = negated || (rules.paths && c = '/') then [] else [rest]

/-- Whether a whole text matches a pattern. -/
def accepts (rules : GlobRules) (pattern text : List Char) : Bool :=
  match pieces? rules none pattern.length pattern with
  | none => false
  | some pieces =>
    (pieces.foldl (fun texts piece => (texts.flatMap (rests rules piece)).eraseDups) [text]).any
      List.isEmpty

end Glob

end Packaging.Text
