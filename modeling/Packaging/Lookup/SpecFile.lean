import Packaging.FileSystem

/-! Spec files of packages that are checked out on disk. The first directory that has one decides,
and in it the least name.
-/

namespace Packaging.SpecFile

/-- The least name of a spec file directly inside a directory, as a path relative to it. -/
def inDirectory? (fs : FileSystem) (directory : Path) : Except FileError (Option Path) := do
  let names ← fs.fileNames directory
  return (names.map Path.ofString).find? (·.hasExtension "spec")

/-- The spec file of the first directory that has one. A directory that cannot be listed ends the
search.
-/
def find? (fs : FileSystem) : List Path → Except FileError (Option Path)
  | [] => return none
  | directory :: rest => do
    match ← inDirectory? fs directory with
    | some path => return some path
    | none => find? fs rest

end Packaging.SpecFile
