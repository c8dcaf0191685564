import Packaging.Git.Failure
import Packaging.Git.Refspec
import Packaging.Text.Search

/-! Remote repositories as the configuration describes them. A description that is broken in any
part describes no remote, even if the part is not needed.
-/

namespace Packaging.Git

/-- A remote repository: where it is, and which of its references are kept. -/
structure Remote where
  url : Option (List Char)
  fetched : List Refspec
deriving DecidableEq

namespace Config

/-- The front of URLs that a setting replaces, and the base that it puts there. The name of the base
stands between marks that may stand anywhere in the key, but their lengths are taken from its ends.
-/
def substitution? (setting : Setting) : Option (List Char × List Char) :=
  let key := FileText.characters setting.key.toUTF8
  let (mark, ending) := ("url.".toList, ".insteadof".toList)
  let isMarked := (Text.after? mark key).any (Text.occurs ending)
  if isMarked then
    setting.value.map fun front =>
      (front, (key.drop mark.length).take (key.length - mark.length - ending.length))
  else none

/-- A URL with the longest front that has a substitute replaced. Of two settings for one front
the first counts.
-/
def substituted (config : Config) (url : List Char) : List Char :=
  let longest := (config.filterMap substitution?).foldl (fun best found =>
    if found.1.isPrefixOf url && best.1.length < found.1.length then found else best) ([], [])
  longest.2 ++ url.drop longest.1.length

/-- Specifications from the values of a setting. -/
def refspecs (read : List Char → Option Refspec) (settings : List Setting)
    : Except Failure (List Refspec) :=
  settings.mapM fun setting =>
    match setting.value with
    | none => .error .corrupt
    | some text =>
      match read text with
      | some spec => .ok spec
      | none => .error .unknown

/-- Whether the settings that say which references are removed can be understood. The one of a
remote comes before the one for all.
-/
def tellsPruning (config : Config) (name : String) : Bool :=
  match config.get? ("remote." ++ name ++ ".prune"), config.get? "fetch.prune" with
  | some setting, _ => (bool? setting.value).isSome
  | none, some setting => (bool? setting.value).isSome
  | none, none => true

/-- Whether a remote may have a name. -/
def isRemoteName (name : String) : Bool :=
  !name.isEmpty
    && (Refspec.fetch? ("refs/heads/test:refs/remotes/" ++ name ++ "/test").toList).isSome

def remote (config : Config) (name : String) : Except Failure Remote := do
  let key (last : String) : String := "remote." ++ name ++ "." ++ last
  if !isRemoteName name then throw .unknown
  if (config.get? (key "url")).isNone && (config.get? (key "pushurl")).isNone then throw .unknown
  let fetched ← refspecs Refspec.fetch? (config.settingsOf (key "fetch"))
  let _ ← refspecs Refspec.push? (config.settingsOf (key "push"))
  if !config.tellsPruning name then throw .corrupt
  let url := (config.value? (key "url")).filter (!·.isEmpty)
  return ⟨url.map config.substituted, fetched⟩

/-- The full name of the reference that a branch follows. A dot in the place of a remote means the
repository itself.
-/
def upstream (config : Config) (branch : String) : Except Failure String := do
  let value (last : String) : List Char :=
    (config.value? ("branch." ++ branch ++ "." ++ last)).getD []
  let (remote, followed) := (value "remote", value "merge")
  if remote.isEmpty || followed.isEmpty then throw .unknown
  if remote = ['.'] then return FileText.ofCharacters followed
  let remote ← config.remote (FileText.ofCharacters remote)
  match remote.fetched.find? (·.accepts followed) with
  | some spec => return FileText.ofCharacters (spec.keptAs followed)
  | none => throw .unknown

end Config

end Packaging.Git
