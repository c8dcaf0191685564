import Packaging.Git.Object
import Packaging.Text.Integer

/-! Revisions: a name, and steps from the object of that name to another one. A revision that breaks
the grammar names nothing.
-/

namespace Packaging.Git

/-- A step of a revision. Until one of them needs an object, only a name or a reference is known. -/
inductive RevisionStep where
  | start
  | parent (number : Nat)
  | ancestor (count : Nat)
  | untag
  | sort (sort : ObjectSort)
  | latestMatch (pattern : List Char)
  | recorded (inside : List Char)
  | path (path : List Char)
  | malformed
deriving DecidableEq

structure Revision where
  name : List Char
  steps : List RevisionStep
deriving DecidableEq

namespace Revision

/-- The number of generations or of a parent that digits spell. Without digits it is one. -/
def number? (digits : List Char) : Option Nat :=
  if digits.isEmpty then some 1
  else
    let number := Text.Integer.ofDigits 10 digits
    if Text.Integer.fits 32 number then some number else none

/-- The number of generations that tildes at the front of a text mean together, and the text after
them. A number may stand behind each tilde.
-/
def generations? : List Char → Option (Nat × List Char)
  | '~' :: rest => do
    let number ← number? (rest.takeWhile Char.isDigit)
    let (more, after) ← generations? (rest.dropWhile Char.isDigit)
    return (number + more, after)
  | text => some (0, text)
termination_by text => text.length
decreasing_by
  simp only [List.length_cons]
  exact Nat.lt_succ_of_le (List.dropWhile_sublist _).length_le

/-- The text between braces, and the text after them. -/
def braced? (text : List Char) : Option (List Char × List Char) :=
  match text.dropWhile (· ≠ '\x7d') with
  | _ :: rest => some (text.takeWhile (· ≠ '\x7d'), rest)
  | [] => none

/-- The step of a text in braces behind a caret. -/
def caretStep (inside : List Char) : RevisionStep :=
  match inside with
  | [] => .untag
  | '/' :: pattern => .latestMatch pattern
  | inside =>
    match String.ofList inside with
    | "commit" => .sort .commit
    | "tree" => .sort .tree
    | "blob" => .sort .blob
    | "tag" => .sort .tag
    | _ => .malformed

/-- The steps of a text. No name may stand between steps. A caret needs its object before what
follows is read, and tildes only afterwards. Generations are counted in 32 bits.
-/
def readSteps : List Char → List RevisionStep
  | [] => [.start]
  | '^' :: '\x7b' :: rest =>
    match braced? rest with
    | none => [.start, .malformed]
    | some (inside, after) =>
      if after.length ≤ rest.length then .start :: caretStep inside :: readSteps after
      else [.malformed]
  | '^' :: rest =>
    match number? (rest.takeWhile Char.isDigit) with
    | none => [.start, .malformed]
    | some number => .start :: .parent number :: readSteps (rest.dropWhile Char.isDigit)
  | '~' :: rest =>
    match generations? ('~' :: rest) with
    | none => [.malformed]
    | some (count, after) =>
      if after.length ≤ rest.length then
        .start :: .ancestor (count % Nat.pow 2 32) :: readSteps after
      else [.malformed]
  | ':' :: rest => [.path rest]
  | '@' :: '\x7b' :: rest =>
    match braced? rest with
    | none => [.malformed]
    | some (inside, after) =>
      if after.length ≤ rest.length then .recorded inside :: readSteps after else [.malformed]
  | _ => [.malformed]
termination_by text => text.length
decreasing_by
  all_goals simp only [List.length_cons]
  all_goals first
    | omega
    | exact Nat.lt_succ_of_le (List.dropWhile_sublist _).length_le

/-- The name at the front of a text, and the text of the steps. -/
def splitName : List Char → List Char × List Char
  | [] => ([], [])
  | c :: rest =>
    if c = '^' || c = '~' || c = ':' || (c = '@' && rest.head? = some '\x7b') then ([], c :: rest)
    else
      let (name, after) := splitName rest
      (c :: name, after)

def ofString (text : String) : Revision :=
  let (name, rest) := splitName text.toList
  ⟨name, readSteps rest⟩

end Revision

end Packaging.Git
