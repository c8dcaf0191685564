import Packaging.Text.Expression.Basic
import Packaging.Text.Integer

/-! Reading of regular expressions. A text that breaks the grammar anywhere is no expression.
-/

namespace Packaging.Text.Expression

/-- What the options at the front of a group change. -/
structure Options where
  ignoreCase : Bool := false
  everyLine : Bool := false
  dotAll : Bool := false
  spaced : Bool := false
  ungreedy : Bool := false

/-- What is known at a place of the text: the options there, how many groups have begun before it,
the numbers of those with names, and the greatest number of a group that is wanted again.
-/
structure Reading where
  options : Options := {}
  groups : Nat := 0
  names : List (String × Nat) := []
  wanted : Nat := 0

/-! ## Characters -/

/-- A text in which each character between the marks for quotation is escaped. -/
def unquoted (quoted : Bool) : List Char → List Char
  | [] => []
  | '\\' :: 'E' :: rest => unquoted false rest
  | '\\' :: c :: rest =>
    if quoted then '\\' :: '\\' :: unquoted true (c :: rest)
    else if c = 'Q' then unquoted true rest
    else '\\' :: c :: unquoted false rest
  | c :: rest =>
    if quoted && !c.isAlphanum then '\\' :: c :: unquoted quoted rest else c :: unquoted quoted rest

/-- Whether a character belongs to a word. -/
def isWord (c : Char) : Bool :=
  c.isAlphanum || c = '_'

/-- Whether a character is a blank within a line. -/
def isSpace (c : Char) : Bool :=
  c = ' ' || c = '\t' || c = Char.ofNat 0xa0

def isLineEnd (c : Char) : Bool :=
  ('\n' ≤ c && c ≤ '\r') || c = Char.ofNat 0x85

/-- The class that a letter after a backslash stands for. -/
def classOf? : Char → Option (Char → Bool)
  | 'd' => some Char.isDigit
  | 'D' => some fun c => !c.isDigit
  | 'w' => some isWord
  | 'W' => some fun c => !isWord c
  | 's' => some Integer.isBlank
  | 'S' => some fun c => !Integer.isBlank c
  | 'h' => some isSpace
  | 'H' => some fun c => !isSpace c
  | 'v' => some isLineEnd
  | 'V' => some fun c => !isLineEnd c
  | _ => none

/-- The classes that stand in brackets between colons. -/
def namedClass? (name : String) : Option (Char → Bool) :=
  let isPrinted (c : Char) : Bool := '!' ≤ c && c ≤ '~'
  match name with
  | "alnum" => some Char.isAlphanum
  | "alpha" => some Char.isAlpha
  | "ascii" => some fun c => c.toNat < 128
  | "blank" => some fun c => c = ' ' || c = '\t'
  | "cntrl" => some fun c => c < ' ' || c = '\x7f'
  | "digit" => some Char.isDigit
  | "graph" => some isPrinted
  | "lower" => some Char.isLower
  | "print" => some fun c => c = ' ' || isPrinted c
  | "punct" => some fun c => isPrinted c && !c.isAlphanum
  | "space" => some Integer.isBlank
  | "upper" => some Char.isUpper
  | "word" => some isWord
  | "xdigit" => some fun c => Integer.isDigit 16 c
  | _ => none

/-- The character of a code in digits of a base. Only codes of one byte are characters. -/
def coded? (base : Nat) (digits : List Char) : Option Char :=
  let code := Integer.ofDigits base digits
  if code < 256 then some (Char.ofNat code) else none

/-- The character of a code between braces at the front of a text, and the text after it. -/
def bracedCode? (base : Nat) (text : List Char) : Option (Char × List Char) :=
  let digits := text.takeWhile (Integer.isDigit base)
  match digits, text.drop digits.length with
  | _ :: _, '\x7d' :: rest => (coded? base digits).map fun c => (c, rest)
  | _, _ => none

/-- The character that an escape stands for, and the text after it. Letters without a meaning of
their own stand for themselves, with the exception of those that would change the case of what
follows.
-/
def escaped? : List Char → Option (Char × List Char)
  | [] => none
  | 'a' :: rest => some ('\x07', rest)
  | 'e' :: rest => some ('\x1b', rest)
  | 'f' :: rest => some ('\x0c', rest)
  | 'n' :: rest => some ('\n', rest)
  | 'r' :: rest => some ('\r', rest)
  | 't' :: rest => some ('\t', rest)
  | ['c'] => none
  | 'c' :: c :: rest => some (Char.ofNat (Nat.xor c.toUpper.toNat 64), rest)
  | 'o' :: '\x7b' :: rest => bracedCode? 8 rest
  | 'o' :: _ => none
  | 'x' :: '\x7b' :: rest => bracedCode? 16 rest
  | 'x' :: rest =>
    let digits := (rest.take 2).takeWhile (Integer.isDigit 16)
    (coded? 16 digits).map fun c => (c, rest.drop digits.length)
  | c :: rest =>
    if Integer.isDigit 8 c then
      let digits := ((c :: rest).take 3).takeWhile (Integer.isDigit 8)
      (coded? 8 digits).map fun code => (code, (c :: rest).drop digits.length)
    else if c ∈ ['l', 'L', 'u', 'U'] then none
    else some (c, rest)

/-- A test that does not tell capitals from small letters if the options say so. -/
def folded (options : Options) (accepts : Char → Bool) (c : Char) : Bool :=
  accepts c || (options.ignoreCase && (accepts c.toLower || accepts c.toUpper))

def literal (options : Options) (expected : Char) : Expression :=
  .one (folded options (· = expected))

/-! ## Sets -/

/-- A member of a set: a character, which may begin a span, or a class. -/
inductive Member where
  | one (c : Char)
  | all (accepts : Char → Bool)

/-- The class between colons at the front of a text, and the text after it. -/
def takeNamed? (text : List Char) : Option (String × List Char) :=
  let name := text.takeWhile fun c => c.isLower || c = '^'
  match text.drop name.length with
  | ':' :: ']' :: rest => some (String.ofList name, rest)
  | _ => none

/-- The member at the front of a text, and the text after it. -/
def member? : List Char → Option (Member × List Char)
  | [] => none
  | '[' :: ':' :: rest =>
    match takeNamed? rest with
    | none => some (.one '[', ':' :: rest)
    | some (name, after) =>
      match name.toList with
      | '^' :: name =>
        (namedClass? (String.ofList name)).map fun accepts => (.all fun c => !accepts c, after)
      | _ => (namedClass? name).map fun accepts => (.all accepts, after)
  | '\\' :: 'b' :: rest => some (.one '\x08', rest)
  | '\\' :: 'N' :: _ => none
  | '\\' :: c :: rest =>
    match classOf? c with
    | some accepts => some (.all accepts, rest)
    | none => (escaped? (c :: rest)).map fun (c, after) => (.one c, after)
  | ['\\'] => none
  | c :: rest => some (.one c, rest)

/-- The members of a set up to its bracket as one test, and the text after it. A bracket that stands
first is a member, and so is a dash that has no two characters around it.
-/
def members? (first : Bool) (accepts : Char → Bool)
    : (fuel : Nat) → List Char → Option ((Char → Bool) × List Char)
  | 0, _ => none
  | fuel + 1, text =>
    match first, text with
    | false, ']' :: rest => some (accepts, rest)
    | _, text =>
      let add (more : Char → Bool) := members? false (fun c => accepts c || more c) fuel
      (member? text).bind fun
        | (.all more, after) => add more after
        | (.one low, '-' :: ']' :: after) => add (· = low) ('-' :: ']' :: after)
        | (.one low, '-' :: after) =>
          (member? after).bind fun
            | (.all more, rest) => add (fun c => c = low || c = '-' || more c) rest
            | (.one high, rest) =>
              if high < low then none else add (fun c => low ≤ c && c ≤ high) rest
        | (.one c, after) => add (· = c) after

/-- The set after an opening bracket, and the text after it. -/
def set? (options : Options) (text : List Char) : Option (Expression × List Char) :=
  let negated := text.head? = some '^'
  let inside := if negated then text.drop 1 else text
  (members? true (fun _ => false) (inside.length + 1) inside).map fun (accepts, rest) =>
    (.one fun c => folded options accepts c ≠ negated, rest)

/-! ## Places -/

/-- Whether a place is the end of a text, or stands before the line end that ends it. -/
def isAtEnd (place : Place) : Bool :=
  place.rest = [] || place.rest = ['\n']

/-- Whether a place is the end of a line. -/
def isAtLineEnd (options : Options) (place : Place) : Bool :=
  isAtEnd place || (options.everyLine && place.rest.head? = some '\n')

/-- Whether a place is the start of a line. -/
def isAtStart (options : Options) (place : Place) : Bool :=
  place.previous = none
    || (options.everyLine && place.previous = some '\n' && place.rest ≠ [])

/-- Whether a word begins or ends at a place. -/
def isAtWord (place : Place) : Bool :=
  place.previous.any isWord ≠ place.rest.head?.any isWord

/-- The places that a letter after a backslash stands for. -/
def placeOf? : Char → Option (Place → Bool)
  | 'A' => some fun place => place.previous = none
  | 'G' => some fun place => place.previous = none
  | 'Z' => some isAtEnd
  | 'z' => some fun place => place.rest = []
  | 'b' => some isAtWord
  | 'B' => some fun place => !isAtWord place
  | _ => none

/-! ## Repetitions -/

/-- The greatest count that a repetition may have. -/
def countLimit : Nat := 65535

/-- The number of rounds at the front of a text, and the text after it. Braces without counts mean
themselves.
-/
def counts? : List Char → Option ((Nat × Option Nat) × List Char)
  | '*' :: rest => some ((0, none), rest)
  | '+' :: rest => some ((1, none), rest)
  | '?' :: rest => some ((0, some 1), rest)
  | '\x7b' :: text =>
    let least := text.takeWhile Char.isDigit
    if least.isEmpty then none
    else
      match text.drop least.length with
      | '\x7d' :: rest =>
        some ((Integer.ofDigits 10 least, some (Integer.ofDigits 10 least)), rest)
      | ',' :: more =>
        let greatest := more.takeWhile Char.isDigit
        match more.drop greatest.length with
        | '\x7d' :: rest =>
          some ((Integer.ofDigits 10 least,
            if greatest.isEmpty then none else some (Integer.ofDigits 10 greatest)), rest)
        | _ => none
      | _ => none
  | _ => none

/-- A text without the remarks at its front. -/
def afterRemarks (options : Options) : List Char → List Char
  | [] => []
  | '(' :: '?' :: '#' :: rest =>
    match rest.dropWhile (· ≠ ')') with
    | _ :: after => if after.length ≤ rest.length then afterRemarks options after else after
    | [] => '(' :: '?' :: '#' :: rest
  | c :: rest =>
    if options.spaced && Integer.isBlank c then afterRemarks options rest
    else if options.spaced && c = '#' then afterRemarks options (rest.dropWhile (· ≠ '\n'))
    else c :: rest
termination_by text => text.length
decreasing_by
  all_goals simp only [List.length_cons]
  all_goals first
    | omega
    | exact Nat.lt_succ_of_le (List.dropWhile_sublist _).length_le

/-- An expression with the repetition that follows it, and the text after that. -/
def repetition? (options : Options) (inner : Expression) (text : List Char)
    : Option (Expression × List Char) :=
  let text := afterRemarks options text
  match counts? text with
  | none => some (inner, text)
  | some ((least, greatest), rest) =>
    if countLimit < least || greatest.any fun n => n < least || countLimit < n then none
    else
      match rest with
      | '?' :: rest => some (.repeated least greatest options.ungreedy inner, rest)
      | '+' :: rest => some (.once (.repeated least greatest true inner), rest)
      | rest => some (.repeated least greatest (!options.ungreedy) inner, rest)

/-! ## Expressions -/

/-- The number of characters that an expression takes, if all ways take as many. -/
def width? : Expression → Option Nat
  | .one _ => some 1
  | .sequence first second => do return (← width? first) + (← width? second)
  | .either first second => do
    let width ← width? first
    if (← width? second) = width then some width else none
  | .repeated least greatest _ inner =>
    if greatest = some least then (width? inner).map (least * ·) else none
  | .once inner => width? inner
  | .group _ inner => width? inner
  | .again _ _ => none
  | _ => some 0

/-- What looks behind. Each alternative takes a number of characters of its own. -/
def lookBehind? (wanted : Bool) : Expression → Option Expression
  | .either first second => do
    let first ← lookBehind? wanted first
    let second ← lookBehind? wanted second
    return if wanted then .either first second else .sequence first second
  | inner => (width? inner).map fun width => .behind wanted width inner

/-- The options that letters switch on or off, and the text after them. -/
def options? (on : Bool) (options : Options) : List Char → Option (Options × List Char)
  | '-' :: rest => options? false options rest
  | 'i' :: rest => options? on { options with ignoreCase := on } rest
  | 'm' :: rest => options? on { options with everyLine := on } rest
  | 's' :: rest => options? on { options with dotAll := on } rest
  | 'x' :: rest => options? on { options with spaced := on } rest
  | 'U' :: rest => options? on { options with ungreedy := on } rest
  | ')' :: rest => some (options, ')' :: rest)
  | ':' :: rest => some (options, ':' :: rest)
  | _ => none

/-- The name at the front of a text that ends with the character `close`, and the text after that.
-/
def name? (close : Char) (text : List Char) : Option (String × List Char) :=
  let name := text.takeWhile isWord
  match name, text.drop name.length with
  | first :: _, c :: rest =>
    if c = close && !first.isDigit then some (String.ofList name, rest) else none
  | _, _ => none

/-- What the text after an opening bracket begins. -/
inductive Opening where
  | group (name : Option String) (rest : List Char)
  | plain (options : Options) (rest : List Char)
  | options (options : Options) (rest : List Char)
  | once (rest : List Char)
  | ahead (wanted : Bool) (rest : List Char)
  | behind (wanted : Bool) (rest : List Char)
  | again (name : String) (rest : List Char)
  | never (rest : List Char)

def opening? (options : Options) : List Char → Option Opening
  | '?' :: ':' :: rest => some (.plain options rest)
  | '?' :: '|' :: rest => some (.plain options rest)
  | '?' :: '=' :: rest => some (.ahead true rest)
  | '?' :: '!' :: rest => some (.ahead false rest)
  | '?' :: '<' :: '=' :: rest => some (.behind true rest)
  | '?' :: '<' :: '!' :: rest => some (.behind false rest)
  | '?' :: '>' :: rest => some (.once rest)
  | '?' :: 'P' :: '=' :: rest => (name? ')' rest).map fun (name, rest) => .again name rest
  | '?' :: 'P' :: '<' :: rest => (name? '>' rest).map fun (name, rest) => .group name rest
  | '?' :: '<' :: rest => (name? '>' rest).map fun (name, rest) => .group name rest
  | '?' :: '\'' :: rest => (name? '\'' rest).map fun (name, rest) => .group name rest
  | '?' :: rest =>
    (options? true options rest).bind fun
      | (options, ')' :: after) => some (.options options after)
      | (options, ':' :: after) => some (.plain options after)
      | _ => none
  | '*' :: 'F' :: ')' :: rest => some (.never rest)
  | '*' :: 'F' :: 'A' :: 'I' :: 'L' :: ')' :: rest => some (.never rest)
  | '*' :: _ => none
  | rest => some (.group none rest)

/-! ## Groups that are wanted again -/

/-- What a group has taken, wanted again. -/
def wantAgain (reading : Reading) (number : Nat) : Expression × Reading :=
  let same (a b : Char) : Bool :=
    a = b || (reading.options.ignoreCase && a.toLower = b.toLower)
  (.again number same, { reading with wanted := max reading.wanted number })

/-- The number of the group that a text means: a number from the start, or after a dash from here
back.
-/
def groupNumber? (reading : Reading) (text : List Char) : Option Nat :=
  match text with
  | '-' :: digits => do
    let back ← wholeNumber? digits
    if back ≤ reading.groups then some (reading.groups + 1 - back) else none
  | digits => wholeNumber? digits
where
  /-- The number that digits spell, which is not zero. -/
  wholeNumber? (digits : List Char) : Option Nat :=
    let number := Integer.ofDigits 10 digits
    if digits.all Char.isDigit && number ≠ 0 then some number else none

/-- The group that an escape wants again, and the text after it, if the escape is one of these. What
could be a number of two digits or more is one only if so many groups have begun.
-/
def wantedGroup? (reading : Reading) : List Char → Option (Option (Nat × List Char))
  | 'g' :: '\x7b' :: rest =>
    let inside := rest.takeWhile (· ≠ '\x7d')
    let number := (groupNumber? reading inside).or (reading.names.lookup (String.ofList inside))
    some (number.map fun number => (number, rest.drop (inside.length + 1)))
  | 'g' :: rest =>
    let dash := if rest.head? = some '-' then 1 else 0
    let inside := rest.take (dash + ((rest.drop dash).takeWhile Char.isDigit).length)
    some ((groupNumber? reading inside).map fun number => (number, rest.drop inside.length))
  | 'k' :: opener :: rest =>
    let close := if opener = '<' then '>' else if opener = '\x7b' then '\x7d' else '\''
    some (do
      if opener ∉ ['<', '\x7b', '\''] then none
      let (name, rest) ← name? close rest
      return (← reading.names.lookup name, rest))
  | ['k'] => some none
  | c :: rest =>
    if '1' ≤ c && c ≤ '9' then
      let digits := c :: rest.takeWhile Char.isDigit
      let number := Integer.ofDigits 10 digits
      if number < 10 || number ≤ reading.groups then
        some (some (number, rest.drop (digits.length - 1)))
      else none
    else none
  | [] => none

/-! ## Pieces -/

/-- The place where a word begins or ends, in brackets at the front of a text after the first one,
and the text after it.
-/
def wordPlace? : List Char → Option ((Place → Bool) × List Char)
  | '[' :: ':' :: '<' :: ':' :: ']' :: ']' :: rest =>
    some (fun place => isAtWord place && place.rest.head?.any isWord, rest)
  | '[' :: ':' :: '>' :: ':' :: ']' :: ']' :: rest =>
    some (fun place => isAtWord place && place.previous.any isWord, rest)
  | _ => none

mutual

/-- The alternatives at the front of a text, up to a closing bracket or the end. -/
def alternatives? (reading : Reading)
    : (fuel : Nat) → List Char → Option (Expression × Reading × List Char)
  | 0, _ => none
  | fuel + 1, text => do
    let (first, reading, rest) ← sequence? reading fuel text
    match rest with
    | '|' :: rest => do
      let (second, reading, rest) ← alternatives? reading fuel rest
      return (.either first second, reading, rest)
    | rest => return (first, reading, rest)

/-- The pieces at the front of a text one after another. -/
def sequence? (reading : Reading)
    : (fuel : Nat) → List Char → Option (Expression × Reading × List Char)
  | 0, _ => none
  | fuel + 1, text =>
    match afterRemarks reading.options text with
    | [] => some (.empty, reading, [])
    | '|' :: rest => some (.empty, reading, '|' :: rest)
    | ')' :: rest => some (.empty, reading, ')' :: rest)
    | text => do
      let (first, reading, rest) ← piece? reading fuel text
      let (second, reading, rest) ← sequence? reading fuel rest
      return (.sequence first second, reading, rest)

/-- The piece at the front of a text with its repetition. What stands for a place alone cannot be
repeated.
-/
def piece? (reading : Reading)
    : (fuel : Nat) → List Char → Option (Expression × Reading × List Char)
  | 0, _ => none
  | _, [] => none
  | fuel + 1, c :: rest => do
    let options := reading.options
    let repeatable (reading : Reading) (expression : Expression) (rest : List Char) := do
      let (expression, rest) ← repetition? options expression rest
      return (expression, { reading with options := options }, rest)
    let place (holds : Place → Bool) (rest : List Char) :=
      some (.here holds, reading, rest)
    match c with
    | '(' =>
      let inside (reading : Reading) (text : List Char) := do
        match ← alternatives? reading fuel text with
        | (expression, reading, ')' :: rest) => return (expression, reading, rest)
        | _ => none
      match ← opening? options rest with
      | .options options rest => return (.empty, { reading with options := options }, rest)
      | .never rest => place (fun _ => false) rest
      | .group name text =>
        let number := reading.groups + 1
        if name.any fun name => (reading.names.lookup name).isSome then none
        let names := (name.map fun name => (name, number)).toList
        let (inner, reading, rest) ← inside
          { reading with groups := number, names := names ++ reading.names } text
        repeatable reading (.group number inner) rest
      | .plain other text =>
        let (inner, reading, rest) ← inside { reading with options := other } text
        repeatable reading inner rest
      | .once text =>
        let (inner, reading, rest) ← inside reading text
        repeatable reading (.once inner) rest
      | .ahead wanted text =>
        let (inner, reading, rest) ← inside reading text
        repeatable reading (.ahead wanted inner) rest
      | .behind wanted text =>
        let (inner, reading, rest) ← inside reading text
        repeatable reading (← lookBehind? wanted inner) rest
      | .again name text =>
        let (expression, reading) := wantAgain reading (← reading.names.lookup name)
        repeatable reading expression text
    | '[' =>
      match wordPlace? rest with
      | some (holds, rest) => place holds rest
      | none =>
        let (expression, rest) ← set? options rest
        repeatable reading expression rest
    | '.' => repeatable reading (.one fun c => options.dotAll || c ≠ '\n') rest
    | '^' => place (isAtStart options) rest
    | '$' => place (isAtLineEnd options) rest
    | '\\' =>
      match wantedGroup? reading rest with
      | some found =>
        let (number, rest) ← found
        let (expression, reading) := wantAgain reading number
        repeatable reading expression rest
      | none =>
        match rest with
        | [] => none
        | c :: after =>
          match placeOf? c, classOf? c with
          | some holds, _ => place holds after
          | none, some accepts => repeatable reading (.one accepts) after
          | none, none =>
            match c with
            | 'K' => return (.empty, reading, after)
            | 'C' => repeatable reading (.one fun _ => true) after
            | 'N' => repeatable reading (.one (· ≠ '\n')) after
            | 'R' => repeatable reading (.one isLineEnd) after
            | 'p' => none
            | 'P' => none
            | 'X' => none
            | _ =>
              let (expected, rest) ← escaped? rest
              repeatable reading (literal options expected) rest
    | c =>
      if (counts? (c :: rest)).isSome then none
      else repeatable reading (literal options c) rest

end

/-- The expression that a whole text spells. Every group that is wanted again has to exist. -/
def read? (text : List Char) : Option Expression :=
  let text := unquoted false text
  match alternatives? {} (4 * text.length + 4) text with
  | some (expression, reading, []) =>
    if reading.wanted ≤ reading.groups then some expression else none
  | _ => none

end Packaging.Text.Expression
