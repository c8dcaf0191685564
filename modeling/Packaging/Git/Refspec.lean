import Packaging.Git.Config.Basic
import Packaging.Git.ReferenceName
import Packaging.Text.Glob

/-! Specifications of which references of a remote are kept where. A pattern on one side needs one
on the other, and what its asterisk stands for is the same on both.
-/

namespace Packaging.Git

/-- A specification: the names of a remote's references, and the names that they are kept under
unless they are not kept.
-/
structure Refspec where
  source : List Char
  destination : Option (List Char)
  pattern : Bool
deriving DecidableEq

namespace Refspec

/-- The two sides of a specification around its last colon. -/
def sides (text : List Char) : List Char × Option (List Char) :=
  let right := (text.reverse.takeWhile (· ≠ ':')).reverse
  if ':' ∈ text then (text.take (text.length - right.length - 1), some right) else (text, none)

/-- Whether a side is a name. A caret before it takes names out. -/
def isName (pattern : Bool) (side : List Char) : Bool :=
  let name := if side.head? = some '^' then side.drop 1 else side
  ReferenceName.isValid { short := true, pattern := pattern } name

/-- A specification without the sign that stands for changes of all kinds. -/
def unsigned (text : List Char) : List Char :=
  if text.head? = some '+' then text.drop 1 else text

/-- What is fetched by a text. Either side may be empty. -/
def fetch? (text : List Char) : Option Refspec :=
  let (source, right) := sides (unsigned text)
  let destination := right.filter (!·.isEmpty)
  let pattern := '*' ∈ source
  let isPaired := match right with
    | some right => ('*' ∈ right) = pattern
    | none => !pattern || source.head? = some '^'
  if isPaired && (source.isEmpty || isName pattern source) && destination.all (isName pattern) then
    some ⟨source, destination, pattern⟩
  else none

/-- What is pushed by a text. A lone colon means what both sides have, and otherwise the side that
is written has to have a name.
-/
def push? (text : List Char) : Option Refspec :=
  match sides (unsigned text) with
  | ([], some []) => some ⟨[], some [], false⟩
  | (source, right) =>
    let pattern := '*' ∈ source
    let isPaired := right.all fun right => ('*' ∈ right) = pattern
    if isPaired && (source.isEmpty || !pattern || isName pattern source)
        && isName pattern (right.getD source) then
      some ⟨source, some (right.getD source), pattern⟩
    else none

/-- Whether the name of a remote's reference is meant. -/
def accepts (spec : Refspec) (name : List Char) : Bool :=
  Text.Glob.accepts {} spec.source name

/-- A destination as a full name. Short ones are branches, or remotes' branches. -/
def fullDestination (destination : List Char) : List Char :=
  if "refs/".toList.isPrefixOf destination then destination
  else if "remotes/".toList.isPrefixOf destination then "refs/".toList ++ destination
  else "refs/heads/".toList ++ destination

/-- The name under which a name of a remote is kept. -/
def keptAs (spec : Refspec) (name : List Char) : List Char :=
  let destination := (spec.destination.map fullDestination).getD []
  if !spec.pattern then destination
  else
    let opening := (spec.source.takeWhile (· ≠ '*')).length
    let ending := ((spec.source.dropWhile (· ≠ '*')).drop 1).length
    destination.takeWhile (· ≠ '*')
      ++ (name.drop opening).take (name.length - opening - ending)
      ++ (destination.dropWhile (· ≠ '*')).drop 1

end Refspec

end Packaging.Git
