import Packaging.Lookup.ConfigName
import Packaging.Project
import Packaging.Resolution

/-! Lookup of a configuration document in a project at a reference. A file that is missing lets the
next name be tried; every other failure of the project ends the lookup.
-/

namespace Packaging.Project

/-- The first of the named files that the project has. -/
def firstContent (project : Project) (reference : String)
    : List ConfigName → Lookup (Option (ConfigName × String))
  | [] => return none
  | name :: rest => do
    match ← project.askContent name.label reference with
    | .ok content => return some (name, content)
    | .error error =>
      if error.isFileNotFound then project.firstContent reference rest
      else throw (.git error)

/-- The first path of a spec file in the order in which the project lists its files. -/
def specFile (project : Project) (reference : Option String) : Lookup (Option String) := do
  let paths ← project.askFiles reference (some .specFile)
  return paths.head?

/-- The document of a file. A failure to read it is reported and wrapped. -/
def document (name : ConfigName) (content : String) : Lookup Value :=
  let path := Path.ofString name.label
  match Format.ofPath path >>= fun format => format.read path content with
  | .ok value => return value
  | .error cause => do
    Traced.note (.reported (.unloadable (.file name.label)))
    throw (Error.file cause).asUnparsable

/-- The package of a project at a reference, if it has a document there. -/
def package (project : Project) (reference : String) : Lookup (Option Package) := do
  match ← project.firstContent reference ConfigName.all with
  | none =>
    Traced.note (.reported
      (.noConfig (ConfigName.all.map (·.label)) reference project.fullName))
    return none
  | some (name, content) =>
    let value ← document name content
    let spec ← project.specFile (some reference)
    let hints : Hints := {
      configPath := some name.label, repoName := some project.name, specPath := spec }
    let package ← (hints.resolve value).mapTrace .reported
    return some package

end Packaging.Project
