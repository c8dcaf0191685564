import Packaging.Event
import Packaging.Text.Search

/-! Projects whose files can be read at any reference. A project is known by what it answers, so
that a repository on disk and one on a server look the same.
-/

namespace Packaging

inductive Pattern where
  | specFile
  | startsWith (text : String)
  | endsWith (text : String)
  | contains (text : String)
deriving DecidableEq

namespace Pattern

/-- The characters that have a meaning in an expression. -/
def special : List Char :=
  ['\\', '.', '+', '*', '?', '(', ')', '|', '[', ']', '\x7b', '\x7d', '^', '$', '#', '&', '-', '~']

/-- The expression of a literal text. -/
def escaped (text : String) : String :=
  String.ofList (text.toList.flatMap fun c => if c ∈ special then ['\\', c] else [c])

def expression : Pattern → String
  | .specFile => ".+\\.spec$"
  | .startsWith text => "^" ++ escaped text
  | .endsWith text => escaped text ++ "$"
  | .contains text => escaped text

/-- Whether the reversed text ends a spec file's path: something other than a line end stands
before the extension.
-/
def isReversedSpec : List Char → Bool
  | 'c' :: 'e' :: 'p' :: 's' :: '.' :: last :: _ => last ≠ '\n'
  | _ => false

/-- Whether a path matches the pattern. -/
def accepts (pattern : Pattern) (path : String) : Bool :=
  match pattern with
  | .specFile => isReversedSpec path.toList.reverse
  | .startsWith text => text.toList.isPrefixOf path.toList
  | .endsWith text => text.toList.isSuffixOf path.toList
  | .contains text => Text.occurs text.toList path.toList

end Pattern

/-- A project: its name, its name with the namespace, and what it answers about its files. Without
a reference the files are those of its default reference.
-/
structure Project where
  name : String
  fullName : String
  content : (path reference : String) → Except GitError String
  files : (reference : Option String) → (pattern : Option Pattern)
    → Except GitError (List String)

/-- What a project is asked. -/
inductive Question where
  | content (path reference : String)
  | files (reference : Option String) (pattern : Option Pattern)
deriving DecidableEq

/-- A lookup in a project. -/
abbrev Lookup (α : Type) := Traced (Step Question) Error α

namespace Project

/-- Ask a project for the content of a file. -/
def askContent (project : Project) (path reference : String)
    : Lookup (Except GitError String) :=
  ⟨[.asked (.content path reference)], .ok (project.content path reference)⟩

def askFiles (project : Project) (reference : Option String) (pattern : Option Pattern)
    : Lookup (List String) :=
  ⟨[.asked (.files reference pattern)], (project.files reference pattern).mapError .git⟩

end Project

end Packaging
