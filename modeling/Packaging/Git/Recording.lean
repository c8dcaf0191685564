import Packaging.Git.Encoding
import Packaging.Git.Repository

/-! Making of repositories: the files that every repository has, commits on top of each other, names
for them, and logs of the names in repositories with a working directory.
-/

namespace Packaging.Git

/-- A change of a commit: a file with its content, or a file that goes. -/
structure Change where
  path : Name
  content : Option (FileMode × ByteArray)

namespace Change

/-- The tree after a change. -/
def apply (tree : Tree) (change : Change) : Tree :=
  match change.content with
  | some (mode, content) => tree.write mode content (Tree.names change.path)
  | none => tree.remove (Tree.names change.path)

end Change

/-- A commit to make: the changes of its tree, and the branches and tags that name it. -/
structure Recording where
  changes : List Change
  branches : List String
  tags : List String
  annotatedTags : List String

/-- A repository that commits are made in: its path, whether it is bare, and the present time, at
which names are given.
-/
structure Workshop where
  path : String
  bare : Bool
  now : Int

namespace Disk

/-- The branch on which commits are recorded. -/
def mainBranch : String := "refs/heads/main"

/-- The time of the first commit. Each later one is a second after the one before it. -/
def firstTime : Int := 1600000000

/-- A disk with a file at a path. -/
def writeText (disk : Disk) (path text : String) : Disk :=
  { disk with files := disk.files.write path (.file text.toUTF8) }

/-- A disk with more text at the end of the file at a path. -/
def appendText (disk : Disk) (path text : String) : Disk :=
  let before := match disk.files.readBytes path with
    | .ok content => content
    | .error _ => ByteArray.empty
  { disk with files := disk.files.write path (.file (before ++ text.toUTF8)) }

/-- A disk with a directory at a path. -/
def makeDirectory (disk : Disk) (path : String) : Disk :=
  { disk with files := (disk.files.makeDirectory path).1 }

def initialConfig (bare : Bool) (origin : Option String) : String :=
  "[core]\n\tbare = " ++ (if bare then "true" else "false")
    ++ "\n\trepositoryformatversion = 0\n\tfilemode = true\n"
    ++ match origin with
      | none => ""
      | some url =>
        "[remote \"origin\"]\n\turl = " ++ Config.quoted url
          ++ "\n\tfetch = +refs/heads/*:refs/remotes/origin/*\n"

/-- The directories of a new repository. -/
def initialDirectories : List String :=
  ["objects/info", "objects/pack", "refs/heads", "refs/tags"]

/-- The files of a new repository that explain what belongs there. -/
def explanations : List (String × String) :=
  [("description", "Unnamed repository; edit this file 'description' to name the repository.\n"),
    ("info/exclude", "# File patterns to ignore; see `git help ignore` for more information.\n"
      ++ "# Lines that start with '#' are comments.\n"),
    ("hooks/README.sample", "#!/bin/sh\n#\n"
      ++ "# Place appropriately named executable hook scripts into this directory\n"
      ++ "# to intercept various actions that git takes.  See `git help hooks` for\n"
      ++ "# more information.\n")]

def create (disk : Disk) (shop : Workshop) (origin : Option String) : Disk :=
  let disk := initialDirectories.foldl
    (fun disk name => disk.makeDirectory (shop.path ++ "/" ++ name)) disk
  let files := explanations
    ++ [("HEAD", "ref: " ++ mainBranch ++ "\n"), ("config", initialConfig shop.bare origin)]
  files.foldl (fun disk (name, text) => disk.writeText (shop.path ++ "/" ++ name) text) disk

/-- A disk on which the log of a reference tells of a change. Bare repositories keep no logs. -/
def tell (shop : Workshop) (reference : String) (before : Option ObjectId) (id : ObjectId)
    (time : Int) (message : String) (disk : Disk) : Disk :=
  if shop.bare then disk
  else
    let before := before.getD (List.replicate ObjectId.length '0')
    disk.appendText (shop.path ++ "/logs/" ++ reference)
      (String.ofList before ++ " " ++ String.ofList id ++ " " ++ signature time ++ "\t" ++ message
        ++ "\n")

/-- A disk on which a reference names an object. -/
def name (shop : Workshop) (reference : String) (id : ObjectId) (disk : Disk) : Disk :=
  disk.writeText (shop.path ++ "/" ++ reference) (String.ofList id ++ "\n")

/-- A disk on which a new branch names a commit. -/
def branch (shop : Workshop) (id : ObjectId) (disk : Disk) (name : String) : Disk :=
  let reference := "refs/heads/" ++ name
  (disk.name shop reference id).tell shop reference none id shop.now "branch: Created from HEAD"

def store (disk : Disk) (objects : ObjectStore) : Disk :=
  { disk with objects := objects.foldl ObjectStore.add disk.objects }

/-- A disk on which a tag object stands for a commit. -/
def annotate (shop : Workshop) (id : ObjectId) (time : Int) (disk : Disk) (tag : String) : Disk :=
  let tagged := tagId tag id time
  (disk.store [(tagged, .tag id)]).name shop ("refs/tags/" ++ tag) tagged

/-- The disk after one more commit, and that commit. -/
def record (shop : Workshop) (state : Disk × Option ObjectId) (entry : Recording × Nat)
    : Disk × Option ObjectId :=
  let (disk, parent) := state
  let (recording, place) := entry
  let before := (parent.bind fun id => (disk.objects.get? id).bind disk.objects.tree?).getD []
  let time := firstTime + place
  let (id, objects) := Commit.stored {
    tree := recording.changes.foldl Change.apply before
    parent := parent
    message := ['c']
    time := time }
  let disk := (disk.store objects).name shop mainBranch id
  let message := if parent.isSome then "commit: c" else "commit (initial): c"
  let disk := ["HEAD", mainBranch].foldl
    (fun disk reference => disk.tell shop reference parent id time message) disk
  let disk := recording.branches.foldl (branch shop id) disk
  let disk := recording.tags.foldl (fun disk tag => disk.name shop ("refs/tags/" ++ tag) id) disk
  (recording.annotatedTags.foldl (annotate shop id time) disk, some id)

/-- The disk after commits on top of each other. -/
def recordAll (disk : Disk) (shop : Workshop) (recordings : List Recording) : Disk :=
  (recordings.zipIdx.foldl (record shop) (disk, none)).1

end Disk

end Packaging.Git
