import Packaging.Text.Pieces
import Packaging.Text.Search

/-! Names of references. A name consists of components between slashes, and a short name may stand
for several full names, of which the first that exists is meant.
-/

namespace Packaging.Git

/-- What a name may be beyond a full name: `short`, with a single component of any kind, or a
`pattern` that has one asterisk.
-/
structure NameRules where
  short : Bool := false
  pattern : Bool := false

namespace ReferenceName

/-- Whether a character may stand in a name. -/
def isNameChar (c : Char) : Bool :=
  ' ' < c && c ∉ ['~', '^', ':', '\\', '?', '[', '*', '\x7f']

/-- Whether two characters stand next to each other somewhere. -/
def hasPair (first second : Char) : List Char → Bool
  | a :: b :: rest => (a = first && b = second) || hasPair first second (b :: rest)
  | _ => false

/-- Whether a text is a component of a name. -/
def isComponent (text : List Char) : Bool :=
  !text.isEmpty && text.head? ≠ some '.' && text.all isNameChar && !hasPair '.' '.' text
    && !hasPair '@' '\x7b' text && !".lock".toList.isSuffixOf text

/-- Whether a text consists of capitals and underscores, and does not begin or end with one of
the latter.
-/
def isCapital (text : List Char) : Bool :=
  !text.isEmpty && text.head? ≠ some '_' && text.getLast? ≠ some '_'
    && text.all fun c => ('A' ≤ c && c ≤ 'Z') || c = '_'

/-- A pattern with a letter in the place of its asterisk. -/
def withoutAsterisk : List Char → List Char
  | [] => []
  | '*' :: rest => 'x' :: rest
  | c :: rest => c :: withoutAsterisk rest

/-- Whether a text is a name. A single component has to be in capitals unless the name may be short,
and the first of several must not be.
-/
def isValid (rules : NameRules) (name : List Char) : Bool :=
  let name := if rules.pattern then withoutAsterisk name else name
  let parts := Text.pieces (· = '/') name
  parts.all isComponent && name.getLast? ≠ some '.'
    && match parts with
      | [single] => rules.short || isCapital single
      | first :: _ => !isCapital first
      | [] => false

/-- Whether a text is a full name. -/
def isFull (name : String) : Bool :=
  isValid {} name.toList

/-- A name with a single slash wherever several stand in a row. -/
def tidied : List Char → List Char
  | '/' :: '/' :: rest => tidied ('/' :: rest)
  | c :: rest => c :: tidied rest
  | [] => []

/-- No name has more bytes. -/
def sizeLimit : Nat := 1023

/-- The full names that a short name may stand for, in the order in which they are tried. No name at
all means the current commit.
-/
def candidates (name : String) : List String :=
  if name = "" then ["HEAD"]
  else
    [name, "refs/" ++ name, "refs/tags/" ++ name, "refs/heads/" ++ name, "refs/remotes/" ++ name,
      "refs/remotes/" ++ name ++ "/HEAD"]

def branch? (name : String) : Option String :=
  (Text.afterFront? "refs/heads/".toList name.toList).map String.ofList

/-- Whether each working directory has a reference of this name for itself. -/
def isOwn (name : String) : Bool :=
  !"refs/".toList.isPrefixOf name.toList || "refs/bisect/".toList.isPrefixOf name.toList

end ReferenceName

end Packaging.Git
