import Packaging.Git.Evaluation
import Packaging.Git.RemoteUrl
import Packaging.Git.Site
import Packaging.Project

/-! Repositories that are open and the projects that they hold. Only committed files count; what
stands in a working directory is never read.
-/

namespace Packaging.Git

/-- A repository that is open. A bare one has no working directory. -/
structure Repository where
  database : Database
  workDirectory : Option String

namespace Disk

/-! ## Settings -/

def settings (disk : Disk) (site : Site) (path : String) : Except GitError Config :=
  (Config.ofFile ⟨disk.files, site.directory⟩ path).mapError fun _ => .corrupt

/-- Whether a setting means yes. Without the setting it does not. -/
def flag (config : Config) (key : String) : Except GitError Bool :=
  match config.get? key with
  | none => .ok false
  | some setting =>
    match Config.bool? setting.value with
    | some value => .ok value
    | none => .error .corrupt

/-- The settings of a repository. Those of one working directory alone come last. -/
def config (disk : Disk) (site : Site) : Except GitError Config := do
  let config ← disk.settings site (below site.shared "config")
  if ← flag config "extensions.worktreeconfig" then
    return config ++ (← disk.settings site (below site.directory "config.worktree"))
  else return config

/-- The extensions that a repository may use. -/
def extensions : List String :=
  ["extensions.noop", "extensions.objectformat", "extensions.worktreeconfig",
    "extensions.preciousobjects"]

/-- Whether a repository has a format that can be read. Only the first version has extensions, of
which the sort of identifiers is one.
-/
def isReadable (config : Config) : Bool :=
  match config.get? "core.repositoryformatversion" with
  | none => true
  | some setting =>
    match setting.value.bind Config.int? with
    | none => false
    | some version =>
      version ≤ 0
        || (version = 1
          && (config.all fun setting =>
            !"extensions.".toList.isPrefixOf setting.key.toList || setting.key ∈ extensions)
          && (config.get? "extensions.objectformat").all (·.value = some "sha1".toList))

/-! ## Files beside the settings -/

/-- Whether a line names a commit and its parents. -/
def isGraft (line : List Char) : Bool :=
  (Text.pieces (· = ' ') line).all fun part => (ObjectId.whole? part).isSome

/-- Whether a file changes the parents of commits in a form that can be read. A file that is missing
does not change any.
-/
def isGraftFile (disk : Disk) (path : String) : Bool :=
  match disk.files.readBytes path with
  | .error .notFound => true
  | .error .notDirectory => true
  | .error .isDirectory => true
  | .error _ => false
  | .ok content =>
    match (Text.pieces (· = '\n') (FileText.characters content)).reverse with
    | [] :: lines => lines.all isGraft
    | lines => lines.all isGraft

/-- Whether a repository serves one working directory beside others. -/
def isLinked (disk : Disk) (site : Site) : Bool :=
  site.directory ≠ site.shared && (disk.files.find (below site.directory "gitdir")).isOk

/-! ## Working directories -/

/-- A path without steps that stay in place or go up. -/
def tidied (path : String) : String :=
  let parts := (FileSystem.components path).foldl (fun parts part =>
    if part = "" ∨ part = "." then parts
    else if part = ".." then parts.dropLast
    else parts ++ [part]) []
  FileSystem.pathText parts

/-- The directory of the file at a path. -/
def directoryOf (path : String) : String :=
  match (path.toList.reverse.dropWhile (· = '/')).dropWhile (· ≠ '/') with
  | [] => if FileSystem.isAbsolute path then "/" else "."
  | rest =>
    match rest.dropWhile (· = '/') with
    | [] => "/"
    | rest => String.ofList rest.reverse

/-- The working directory of a repository that serves one beside others. -/
def linkedDirectory (disk : Disk) (site : Site) : Except GitError String :=
  match disk.files.readBytes (below site.directory "gitdir") with
  | .error _ => .error .corrupt
  | .ok content =>
    let path := lineOf content
    let name := FileText.ofCharacters path
    .ok (directoryOf (if isRelative path then tidied (below site.directory name) else name))

/-- The working directory of a repository, unless it is bare. -/
def workDirectory (disk : Disk) (shown : String) (site : Site) (config : Config)
    : Except GitError (Option String) := do
  let bare ← flag config "core.bare"
  if disk.isLinked site then return some (← disk.linkedDirectory site)
  else if bare then return none
  else
    match config.value? "core.worktree" with
    | none => return some (FileSystem.pathText site.parent)
    | some [] => throw .corrupt
    | some given => do
      let path := joined (FileSystem.pathText site.directory) (FileText.ofCharacters given)
      let (found, _) ← disk.locate shown path
      return some (FileSystem.pathText found)

/-- Whether a path is free or a directory's. -/
def mayBeDirectory (disk : Disk) (path : String) : Bool :=
  match disk.files.find (path ++ "/") with
  | .ok _ => true
  | .error .notFound => true
  | .error _ => false

/-- Open the repository of a directory at the present time `now`. -/
def openRepository (disk : Disk) (now : Int) (path : String) : Except GitError Repository := do
  if '\x00' ∈ path.toList then throw .corrupt
  let site ← disk.site path
  let config ← disk.config site
  if !isReadable config then throw .corrupt
  if !disk.isGraftFile (below site.shared "info/grafts") then throw .corrupt
  if !disk.isGraftFile (below site.directory "shallow") then throw .corrupt
  let workDirectory ← disk.workDirectory path site config
  if !workDirectory.all disk.mayBeDirectory then throw .corrupt
  let database : Database := {
    files := disk.files
    directory := site.directory
    shared := site.shared
    objects := disk.objects
    config := config
    withoutList := false
    now := now }
  return ⟨database, workDirectory⟩

end Disk

/-- The last name of a path, unless the path ends with a step up. -/
def lastName? (path : String) : Option String :=
  let parts := (FileSystem.components path).filter fun part => part ≠ "" ∧ part ≠ "."
  match parts.getLast? with
  | some ".." => none
  | found => found

namespace Repository

/-- The namespace and the name of a repository that was opened at a path. Without a remote that
tells them the name is that of the working directory.
-/
def names (repository : Repository) (path : String) : Option String × String :=
  let url := match repository.database.config.remote "origin" with
    | .ok remote => remote.url.bind FileText.text?
    | .error _ => none
  match url.bind RemoteUrl.split? with
  | some (scope, name) => (some scope, name)
  | none => (none, (lastName? (repository.workDirectory.getD path)).getD "")

def tree (repository : Repository) (reference : String) : Except GitError Tree :=
  match repository.database.treeAt reference with
  | .ok tree => .ok tree
  | .error .unknown => .error (.noReference reference)
  | .error _ => .error .corrupt

/-- Whether a path may name a file in a tree. It starts with a proper name. -/
def isTreePath (path : String) : Bool :=
  let first := path.toList.takeWhile (· ≠ '/')
  first ≠ [] && first ≠ ['.'] && first ≠ ['.', '.'] && !path.toList.contains '\x00'

/-- The text of a file at a reference. -/
def content (repository : Repository) (path reference : String) : Except GitError String := do
  let tree ← repository.tree reference
  if !isTreePath path then throw .corrupt
  match tree.find? (Tree.names path.toUTF8.toList) with
  | some (.blob _ content) =>
    match String.fromUTF8? content with
    | some text => return text
    | none => throw (.notText path reference)
  | _ => throw (.noFile path reference)

def textOf? (bytes : Name) : Option String :=
  String.fromUTF8? ⟨bytes.toArray⟩

/-- The paths of the files that a walk meets and that pass a test. A file whose name is no text is
passed over; a directory whose path is no text cannot be listed.
-/
def listingWhere (test : String → Bool) : List Visit → Except GitError (List String)
  | [] => .ok []
  | visit :: rest =>
    match textOf? visit.directory with
    | none => .error .corrupt
    | some directory =>
      match visit.node, textOf? visit.name with
      | .blob _ _, some name =>
        let path := directory ++ name
        (listingWhere test rest).map fun paths => if test path then path :: paths else paths
      | _, _ => listingWhere test rest

/-- The paths of all files that a walk meets. -/
def listing (visits : List Visit) : Except GitError (List String) :=
  listingWhere (fun _ => true) visits

/-- The paths of the files at a reference that pass a test. -/
def filesWhere (repository : Repository) (reference : Option String) (test : String → Bool)
    : Except GitError (List String) := do
  let tree ← repository.tree (reference.getD "HEAD")
  listingWhere test tree.walk

/-- The paths of the files at a reference that match a pattern. -/
def files (repository : Repository) (reference : Option String) (pattern : Option Pattern)
    : Except GitError (List String) :=
  repository.filesWhere reference fun path => pattern.all (·.accepts path)

/-- A repository after a question. A broken list of packed references is not read again. -/
def after (repository : Repository) (question : Question) : Repository :=
  let reference := match question with
    | .content _ reference => reference
    | .files reference _ => reference.getD "HEAD"
  match repository.database.treeAt reference with
  | .error .brokenList =>
    { repository with database := { repository.database with withoutList := true } }
  | _ => repository

/-- The project of a repository that was opened at a path. -/
def project (repository : Repository) (path : String) : Project :=
  let (scope, name) := repository.names path
  { name
    fullName := match scope with
      | some scope => scope ++ "/" ++ name
      | none => name
    content := repository.content
    files := repository.files }

end Repository

end Packaging.Git
