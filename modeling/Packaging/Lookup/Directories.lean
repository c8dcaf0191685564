import Packaging.Lookup.ConfigName
import Packaging.Lookup.SpecFile
import Packaging.Resolution

/-! Lookup of a configuration document in directories. All names are tried in one directory before
the next directory, and the first file found decides, be it malformed.
-/

namespace Packaging

/-- What is looked up where. The working directory may be told, and may be moved to either end of
the directories.
-/
structure Locator where
  directories : List Path
  repoName : Option String := none
  workingFirst : Bool := false
  workingLast : Bool := false
  working : Option Path := none
deriving DecidableEq

namespace Locator

def workingPath (locator : Locator) (fs : FileSystem) : Except Error Path :=
  match locator.working with
  | some path => .ok path
  | none => fs.workingPath.mapError .file

/-- The directories in the order in which they are searched. The working directory moves only
when that is asked for; both wishes at once are reported, and the last place is taken.
-/
def searchOrder (locator : Locator) (fs : FileSystem) : Reported (List Path) := do
  if !locator.workingFirst && !locator.workingLast then return locator.directories
  if locator.workingFirst && locator.workingLast then Traced.note .ambiguousOrder
  let working ← locator.workingPath fs
  let others := locator.directories.filter (· ≠ working)
  return if locator.workingLast then others ++ [working] else working :: others

/-- The places of a document in the order in which they are tried. -/
def candidates (directories : List Path) : List (Path × ConfigName) :=
  directories.flatMap fun directory => ConfigName.all.map fun name => (directory, name)

def candidatePath (candidate : Path × ConfigName) : Path :=
  candidate.1.join candidate.2.label

/-- The first candidate that is a file. -/
def first? (fs : FileSystem) (directories : List Path) : Option (Path × ConfigName) :=
  (candidates directories).find? fun candidate => fs.isFile (candidatePath candidate).text

/-- The document at a path. A failure to load it is reported and wrapped. -/
def load (fs : FileSystem) (path : Path) : Reported Value :=
  match fs.load path with
  | .ok document => return document
  | .error cause => do
    Traced.note (.unloadable (.path path))
    throw (Error.file cause).asUnparsable

/-- The first spec file of the directories. A failure to list one of them is told as it is. -/
def specFile (fs : FileSystem) (directories : List Path) : Except Error (Option Path) :=
  (SpecFile.find? fs directories).mapError .file

/-- The package whose document is found first. Its spec file may stand in any directory of the
search, and is looked for once the document is loaded.
-/
def locate (locator : Locator) (fs : FileSystem) : Reported Package := do
  let directories ← locator.searchOrder fs
  match first? fs directories with
  | none => throw (.configNotFound directories)
  | some candidate =>
    let document ← load fs (candidatePath candidate)
    let spec ← specFile fs directories
    let hints : Hints := {
      configPath := some candidate.2.label
      repoName := locator.repoName
      specPath := spec.map (·.text) }
    hints.resolve document

end Locator

end Packaging
