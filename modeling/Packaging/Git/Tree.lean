import Packaging.Text.Pieces

/-! Trees of committed files. Entries stand in the order of their names as bytes, where a directory
compares as if a slash ended its name, so that a walk lists paths in ascending order.
-/

namespace Packaging.Git

/-- The bytes of a name. -/
abbrev Name := List UInt8

/-- The byte that separates the names of a path. -/
def slash : UInt8 := 47

/-- How a file is checked out. A symbolic link is a file that holds its target. -/
inductive FileMode where
  | regular
  | executable
  | link
deriving DecidableEq

/-- What an entry of a tree is. -/
inductive Node where
  | blob (mode : FileMode) (content : ByteArray)
  | tree (entries : List (Name × Node))
  | submodule
deriving Inhabited

/-- The entries of a tree. -/
abbrev Tree := List (Name × Node)

namespace Node

def entries : Node → Tree
  | .tree entries => entries
  | _ => []

def isTree : Node → Bool
  | .tree _ => true
  | _ => false

end Node

namespace Tree

/-- What an entry is ordered by. -/
def key (entry : Name × Node) : Name :=
  if entry.2.isTree then entry.1 ++ [slash] else entry.1

def lookup? (name : Name) : Tree → Option Node
  | [] => none
  | (other, node) :: rest => if other = name then some node else lookup? name rest

/-- The tree without the entry of a name. -/
def drop (name : Name) (tree : Tree) : Tree :=
  tree.filter fun entry => entry.1 ≠ name

/-- The tree with an entry before the first greater one. -/
def place (entry : Name × Node) : Tree → Tree
  | [] => [entry]
  | other :: rest =>
    if key entry < key other then entry :: other :: rest else other :: place entry rest

/-- The tree with `node` under `name`, in the place of what stood there. -/
def put (name : Name) (node : Node) (tree : Tree) : Tree :=
  place (name, node) (drop name tree)

/-- The tree with a file at a path. A file on the way gives way to a directory, and a directory
at the path to the file.
-/
def write (mode : FileMode) (content : ByteArray) (tree : Tree) : List Name → Tree
  | [] => tree
  | [name] => put name (.blob mode content) tree
  | name :: rest =>
    let below := ((lookup? name tree).map Node.entries).getD []
    put name (.tree (write mode content below rest)) tree

/-- The tree without the file at a path. A directory that becomes empty goes as well. -/
def remove (tree : Tree) : List Name → Tree
  | [] => tree
  | [name] => drop name tree
  | name :: rest =>
    match lookup? name tree with
    | some (.tree below) =>
      match remove below rest with
      | [] => drop name tree
      | left => put name (.tree left) tree
    | _ => tree

/-- The names of a path. A slash at either end adds an empty name. -/
def names (path : Name) : List Name :=
  Text.pieces (· = slash) path

/-- The entry at a path, found name by name. One slash may end the path of a directory. -/
def find? : Tree → List Name → Option Node
  | _, [] => none
  | tree, name :: rest =>
    if name.isEmpty then none
    else
      match lookup? name tree, rest with
      | found, [] => found
      | some (.tree below), [[]] => some (.tree below)
      | some (.tree below), rest => find? below rest
      | _, _ => none

end Tree

/-- An entry that a walk meets, with the path of its directory up to a slash. -/
structure Visit where
  directory : Name
  name : Name
  node : Node

mutual

/-- The entries below a node at the path `directory`. -/
def Node.walk (directory : Name) : Node → List Visit
  | .blob _ _ => []
  | .tree entries => walkEntries directory entries
  | .submodule => []

/-- The entries of a tree in order, what is below a directory right after it. -/
def walkEntries (directory : Name) : List (Name × Node) → List Visit
  | [] => []
  | (name, node) :: rest =>
    ⟨directory, name, node⟩ :: node.walk (directory ++ name ++ [slash])
      ++ walkEntries directory rest

end

/-- The entries that a walk of a tree meets. -/
def Tree.walk (tree : Tree) : List Visit :=
  walkEntries [] tree

end Packaging.Git
