import Packaging.Git.Identifier
import Packaging.Git.Tree

/-! Objects of a git repository and the objects that they stand for. A tag stands for its target,
and a commit for its tree.
-/

namespace Packaging.Git

/-- A commit: its tree, the commit before it, its message, and its time in seconds since the start
of 1970.
-/
structure Commit where
  tree : Tree
  parent : Option ObjectId
  message : List Char
  time : Int

/-- An object. -/
inductive Object where
  | commit (commit : Commit)
  | tag (target : ObjectId)
  | tree (tree : Tree)
  | blob

/-- The objects of a repository by their identifiers. -/
abbrev ObjectStore := List (ObjectId × Object)

/-- The sorts of objects, as a revision names them. -/
inductive ObjectSort where
  | commit
  | tree
  | blob
  | tag
deriving DecidableEq

namespace ObjectStore

/-- The object of an identifier. The empty tree needs not be stored. -/
def get? (store : ObjectStore) (id : ObjectId) : Option Object :=
  (store.lookup id).or (if id = ObjectId.emptyTree then some (.tree []) else none)

/-- The store with an object, which stays as it is if it is stored already. -/
def add (store : ObjectStore) (entry : ObjectId × Object) : ObjectStore :=
  if (store.lookup entry.1).isSome then store else store ++ [entry]

/-- The object behind tags. No more than `steps` tags are followed. -/
def untagged? (store : ObjectStore) : Nat → Object → Option Object
  | 0, .tag _ => none
  | steps + 1, .tag target => (store.get? target).bind (store.untagged? steps)
  | _, object => some object

/-- The object behind all tags. Tags cannot form a circle, so their number bounds the way. -/
def behindTags? (store : ObjectStore) (object : Object) : Option Object :=
  store.untagged? store.length object

/-- The commit that an object stands for. -/
def commit? (store : ObjectStore) (object : Object) : Option Commit :=
  match store.behindTags? object with
  | some (.commit commit) => some commit
  | _ => none

/-- The tree that an object stands for. -/
def tree? (store : ObjectStore) (object : Object) : Option Tree :=
  match store.behindTags? object with
  | some (.commit commit) => some commit.tree
  | some (.tree tree) => some tree
  | _ => none

/-- The object of the given sort that an object stands for. A tag stands for itself, too. -/
def peel? (store : ObjectStore) (sort : ObjectSort) (object : Object) : Option Object :=
  match sort, object with
  | .tag, .tag target => some (.tag target)
  | .tag, _ => none
  | .tree, object => (store.tree? object).map .tree
  | .commit, object => (store.commit? object).map .commit
  | .blob, object =>
    match store.behindTags? object with
    | some .blob => some .blob
    | _ => none

/-- The commit before the commit that an object stands for. -/
def parentObject? (store : ObjectStore) (object : Object) : Option Object :=
  ((store.commit? object).bind (·.parent)).bind store.get?

/-- The commit `count` generations before the commit that an object stands for. -/
def ancestor? (store : ObjectStore) : Nat → Object → Option Object
  | 0, object => store.peel? .commit object
  | count + 1, object => (store.parentObject? object).bind (store.ancestor? count)

/-- The parent of the given number of the commit that an object stands for. Number 0 is the commit
itself, and no commit has more than one parent.
-/
def parent? (store : ObjectStore) (number : Nat) (object : Object) : Option Object :=
  if number ≤ 1 then store.ancestor? number object else none

/-- The commit that an object stands for and the commits before it, at most `count`. -/
def lineage (store : ObjectStore) : (count : Nat) → Object → List Commit
  | 0, _ => []
  | count + 1, object =>
    match store.commit? object with
    | none => []
    | some commit =>
      commit :: ((store.parentObject? object).map (store.lineage count)).getD []

/-- The commits that objects stand for and all commits before them. -/
def history (store : ObjectStore) (objects : List Object) : List Commit :=
  objects.flatMap (store.lineage store.length)

/-- The latest of some commits. Of several at one time the first counts. -/
def latest? : List Commit → Option Commit
  | [] => none
  | commit :: rest =>
    match latest? rest with
    | some other => if commit.time < other.time then some other else some commit
    | none => some commit

end ObjectStore

end Packaging.Git
