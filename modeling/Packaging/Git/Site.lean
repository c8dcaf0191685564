import Packaging.Error
import Packaging.Git.Config.Inclusion
import Packaging.Git.Object

/-! Search for repositories on disk. A directory is a repository if it has what every repository
has, and a file may stand in the place of a repository and point to it.
-/

namespace Packaging.Git

/-- A disk: its files, and the objects that repositories on it hold. -/
structure Disk where
  files : FileSystem
  objects : ObjectStore

/-- Where a repository is: its directory, the directory that it shares with others, and the
directory that holds it.
-/
structure Site where
  directory : Location
  shared : Location
  parent : Location
deriving DecidableEq

namespace Disk

/-- The path of a name below a location. -/
def below (location : Location) (name : String) : String :=
  FileSystem.pathText location ++ "/" ++ name

/-- The path of a name below the directory at a path, unless the name is a path from the root. -/
def joined (directory name : String) : String :=
  if FileSystem.isAbsolute name then name else directory ++ "/" ++ name

/-- The text of a file without the blanks at its end, up to a zero character. -/
def lineOf (content : ByteArray) : List Char :=
  FileText.untilZero (FileText.trimRight (FileText.characters content))

/-- What a path leads to. A path that leads nowhere has no repository. -/
def locate (disk : Disk) (shown path : String) : Except GitError (Location × Entry) :=
  match disk.files.find path with
  | .ok found => .ok found
  | .error .notFound => .error (.noRepository shown)
  | .error .notDirectory => .error (.noRepository shown)
  | .error _ => .error .corrupt

/-- Whether a path is told from the directory that holds it. -/
def isRelative (path : List Char) : Bool :=
  "./".toList.isPrefixOf path || "../".toList.isPrefixOf path

/-- The directory that a repository shares with others. Without a file that names another one it is
the repository's own.
-/
def sharedWith (disk : Disk) (shown : String) (directory : Location)
    : Except GitError Location :=
  match disk.files.readBytes (below directory "commondir") with
  | .error _ => .ok directory
  | .ok content => do
    let path := lineOf content
    let name := FileText.ofCharacters path
    let (found, _) ← disk.locate shown (if isRelative path then below directory name else name)
    return found

/-- The repository at a location, if there is one. -/
def siteAt (disk : Disk) (shown : String) (directory parent : Location)
    : Except GitError (Option Site) := do
  let shared ← disk.sharedWith shown directory
  let isWhole := disk.files.isFile (below directory "HEAD")
    && disk.files.isDirectory (below shared "objects")
    && disk.files.isDirectory (below shared "refs")
  return if isWhole then some ⟨directory, shared, parent⟩ else none

/-- The path in a file that stands in the place of a repository. -/
def linkTarget? (content : ByteArray) : Option String := do
  let text := FileText.trimRight (FileText.characters content)
  match ← Text.afterFront? "gitdir:".toList text with
  | [] => none
  | path =>
    return FileText.ofCharacters ((FileText.untilZero path).dropWhile Text.Integer.isBlank)

/-- The repository that is called `name` in a directory, if there is one. A file of the name `.git`
has to point to one.
-/
def search (disk : Disk) (shown : String) (parent : Location) (name : String)
    : Except GitError (Option Site) :=
  match disk.files.find (below parent name) with
  | .ok (_, .directory) => disk.siteAt shown (parent ++ [name]) parent
  | .ok (_, .file content) =>
    if name ≠ ".git" then .ok none
    else
      match linkTarget? content with
      | none => .error .corrupt
      | some target => do
        let (found, _) ← disk.locate shown (joined (FileSystem.pathText parent) target)
        match ← disk.siteAt shown found parent with
        | some site => return some site
        | none => throw (.noRepository shown)
  | _ => .ok none

/-- The repository in a directory, or else the one that the directory is. -/
def site (disk : Disk) (path : String) : Except GitError Site := do
  let (location, _) ← disk.locate path path
  match ← disk.search path location ".git" with
  | some site => return site
  | none =>
    match ← disk.search path location.dropLast (location.getLast?.getD "") with
    | some site => return site
    | none => throw (.noRepository path)

end Disk

end Packaging.Git
