import Packaging.Digest.Sha1
import Packaging.Git.Object

/-! The bytes of objects. The identifier of an object is the digest of its bytes behind a header of
its sort and size, so equal objects have one identifier.
-/

namespace Packaging.Git

def bytes (text : String) : List UInt8 :=
  text.toUTF8.toList

/-- The digest of an object with the given sort and content. -/
def objectDigest (sort : String) (content : List UInt8) : List UInt8 :=
  Digest.Sha1.digest (bytes (sort ++ " " ++ toString content.length) ++ 0 :: content)

namespace FileMode

/-- The digits of a mode in an encoded tree. -/
def digits : FileMode → String
  | .regular => "100644"
  | .executable => "100755"
  | .link => "120000"

end FileMode

namespace Node

/-- The digits of an entry's mode in an encoded tree. -/
def modeDigits : Node → String
  | .blob mode _ => mode.digits
  | .tree _ => "40000"
  | .submodule => "160000"

end Node

mutual

/-- The digest of what an entry is, and what has to be stored for it. A submodule is stored
elsewhere.
-/
def Node.stored : Node → List UInt8 × ObjectStore
  | .blob _ content =>
    let digest := objectDigest "blob" content.toList
    (digest, [(ObjectId.ofDigest digest, .blob)])
  | .tree entries =>
    let (content, below) := storedEntries entries
    let digest := objectDigest "tree" content
    (digest, (ObjectId.ofDigest digest, .tree entries) :: below)
  | .submodule => (List.replicate 20 0, [])

/-- The bytes of the entries of a tree, and what has to be stored for them. -/
def storedEntries : List (Name × Node) → List UInt8 × ObjectStore
  | [] => ([], [])
  | (name, node) :: rest =>
    let (digest, below) := node.stored
    let (content, others) := storedEntries rest
    (bytes (node.modeDigits ++ " ") ++ name ++ 0 :: digest ++ content, below ++ others)

end

/-- Who commits and tags, with the time of it. -/
def signature (time : Int) : String :=
  "Packager <packager@localhost> " ++ toString time ++ " +0000"

namespace Commit

/-- The identifier of a commit, and what has to be stored for it. -/
def stored (commit : Commit) : ObjectId × ObjectStore :=
  let (digest, below) := (Node.tree commit.tree).stored
  let parent := match commit.parent with
    | some id => "parent " ++ String.ofList id ++ "\n"
    | none => ""
  let content := "tree " ++ String.ofList (ObjectId.ofDigest digest) ++ "\n" ++ parent
    ++ "author " ++ signature commit.time ++ "\ncommitter " ++ signature commit.time ++ "\n\n"
    ++ String.ofList commit.message
  let id := ObjectId.ofDigest (objectDigest "commit" (bytes content))
  (id, (id, .commit commit) :: below)

end Commit

/-- The identifier of a tag object of the given name for a commit. -/
def tagId (name : String) (target : ObjectId) (time : Int) : ObjectId :=
  ObjectId.ofDigest (objectDigest "tag" (bytes ("object " ++ String.ofList target
    ++ "\ntype commit\ntag " ++ name ++ "\ntagger " ++ signature time ++ "\n\n" ++ name)))

end Packaging.Git
