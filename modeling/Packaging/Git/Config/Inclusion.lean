import Packaging.FileSystem
import Packaging.Git.Config.Reading
import Packaging.Text.Glob

/-! Configuration files that include others. A file that is included puts its settings in the place
of the setting that names it, and a file that does not exist puts none.
-/

namespace Packaging.Git.Config

/-- What conditions of inclusion are about: the directory of a repository. -/
structure Surroundings where
  files : FileSystem
  directory : Location

namespace Surroundings

/-- The branch that is checked out, if one is. -/
def branch? (surroundings : Surroundings) : Option (List Char) :=
  match surroundings.files.readBytes
    (FileSystem.pathText (surroundings.directory ++ ["HEAD"])) with
  | .error _ => none
  | .ok content =>
    Text.afterFront? "ref: refs/heads/".toList
      (FileText.untilZero (FileText.trimRight (FileText.characters content)))

/-- The end of a pattern. A condition that names a directory means everything below it. -/
def patternEnd (condition : List Char) : List Char :=
  if condition.getLast? = some '/' then ['*', '*'] else []

/-- The directory of the file at a path. -/
def directoryOf (path : List Char) : List Char :=
  ((path.reverse.dropWhile (· ≠ '/')).dropWhile (· = '/')).reverse

/-- The pattern of a condition about the repository's directory, in the file at a path. Home
directories are not known.
-/
def directoryPattern? (file condition : List Char) : Option (List Char) :=
  let opening? := match condition with
    | '.' :: '/' :: rest => some (directoryOf file ++ '/' :: rest)
    | '~' :: '/' :: _ => none
    | '/' :: _ => some condition
    | _ => some ('*' :: '*' :: '/' :: condition)
  opening?.map (· ++ patternEnd condition)

/-- Whether the condition of an inclusion in the file at a path holds. -/
def meets (surroundings : Surroundings) (file condition : List Char) : Bool :=
  let directory := FileText.characters (FileSystem.pathText surroundings.directory).toUTF8
  let inDirectory (ignoreCase : Bool) (condition : List Char) : Bool :=
    (directoryPattern? file condition).any (Text.Glob.accepts ⟨true, ignoreCase⟩ · directory)
  let about (mark : String) : Option (List Char) := Text.afterFront? mark.toList condition
  match about "gitdir:", about "gitdir/i:", about "onbranch:" with
  | some condition, _, _ => inDirectory false condition
  | _, some condition, _ => inDirectory true condition
  | _, _, some condition =>
    surroundings.branch?.any
      (Text.Glob.accepts ⟨true, false⟩ (condition ++ patternEnd condition))
  | _, _, _ => false

/-- Whether a setting in the file at a path includes another file. -/
def isInclusion (surroundings : Surroundings) (file : List Char) (setting : Setting) : Bool :=
  let key := FileText.characters setting.key.toUTF8
  let (opening, ending) := ("includeif.".toList, ".path".toList)
  setting.key = "include.path"
    || (opening.isPrefixOf key && ending.isSuffixOf key
      && opening.length + ending.length ≤ key.length
      && surroundings.meets file
        ((key.drop opening.length).take (key.length - opening.length - ending.length)))

/-- The path of the file that a setting in the file at `path` includes. Files in a home directory
are not known.
-/
def included? (surroundings : Surroundings) (path : String) (setting : Setting)
    : Option String := do
  let given := FileText.ofCharacters (← setting.value)
  if !surroundings.isInclusion (FileText.characters path.toUTF8) setting then none
  else if given.toList.head? = some '~' && given.toList[1]? = some '/' then none
  else if FileSystem.isAbsolute given then some given
  else some (String.ofList (directoryOf path.toList) ++ "/" ++ given)

end Surroundings

/-- Files may include each other this deep. -/
def depthLimit : Nat := 10

/-- The settings of the file at a path and of the files that it includes. A file that cannot be read
or that breaks the grammar is an error, but one that is missing has no settings.
-/
def load (surroundings : Surroundings) : (depth : Nat) → (path : String) → Except Unit Config
  | depth, path =>
    match surroundings.files.readBytes path with
    | .error .notFound => .ok []
    | .error .notDirectory => .ok []
    | .error .isDirectory => .ok []
    | .error _ => .error ()
    | .ok content =>
      match depth, read? (FileText.characters content) with
      | 0, _ => .error ()
      | _, none => .error ()
      | depth + 1, some settings => do
        let parts ← settings.mapM fun setting =>
          match surroundings.included? path setting with
          | none => .ok [setting]
          | some other => (load surroundings depth other).map (setting :: ·)
        return parts.flatten

/-- The settings of the file at a path with all that it includes. -/
def ofFile (surroundings : Surroundings) (path : String) : Except Unit Config :=
  load surroundings depthLimit path

end Packaging.Git.Config
