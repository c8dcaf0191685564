import Packaging.Attributes.Basic

/-! Direct assignment of attributes. An assigned value is taken as it is: an empty one stays empty,
and a derived URL stays derived.
-/

namespace Packaging.Attributes

inductive Assignment where
  | specfilePath (given : Option String)
  | syncedFiles (given : SyncedFiles)
  | distGitNamespace (given : String)
  | projectUrl (given : Option String)
  | projectName (given : Option String)
  | downstreamUrl (given : Option String)
  | downstreamName (given : Option String)
  | distGitBaseUrl (given : String)
  | tarballCommand (given : Option (List String))
  | versionCommand (given : List String)
  | actions (given : Actions)
  | projectRef (given : Option String)
  | gpgKeys (given : Option (List String))
  | createPullRequest (given : Bool)
  | specSourceId (given : String)
  | tagTemplate (given : String)
  | patchIgnorePaths (given : List String)
  | notifications (given : Notifications)
deriving DecidableEq

def assign (attributes : Attributes) : Assignment → Attributes
  | .specfilePath given => { attributes with specfilePath := given }
  | .syncedFiles given => { attributes with syncedFiles := given }
  | .distGitNamespace given => { attributes with distGitNamespace := given }
  | .projectUrl given => { attributes with projectUrl := given }
  | .projectName given => { attributes with projectName := given }
  | .downstreamUrl given => { attributes with downstreamUrl := given }
  | .downstreamName given => { attributes with downstreamName := given }
  | .distGitBaseUrl given => { attributes with distGitBaseUrl := given }
  | .tarballCommand given => { attributes with tarballCommand := given }
  | .versionCommand given => { attributes with versionCommand := given }
  | .actions given => { attributes with actions := given }
  | .projectRef given => { attributes with projectRef := given }
  | .gpgKeys given => { attributes with gpgKeys := given }
  | .createPullRequest given => { attributes with createPullRequest := given }
  | .specSourceId given => { attributes with specSourceId := given }
  | .tagTemplate given => { attributes with tagTemplate := given }
  | .patchIgnorePaths given => { attributes with patchIgnorePaths := given }
  | .notifications given => { attributes with notifications := given }

/-- An assignment never touches the derived URL. -/
@[simp] theorem derivedUrl_assign (attributes : Attributes) (assignment : Assignment)
    : (attributes.assign assignment).derivedUrl = attributes.derivedUrl := by
  cases assignment <;> rfl

namespace Assignment

/-- The text of a value that is a text. -/
def asText : Value → Option String
  | .text content => some content
  | _ => none

/-- The texts of a value that is a list. -/
def asTexts : Value → Option (List String)
  | .list items => some (items.filterMap asText)
  | _ => none

/-- The assignment of a value to the attribute of a key. A value of another kind clears an optional
attribute and leaves any other empty. Attributes with a form of their own have no such assignment.
-/
def ofEntry (key : String) (value : Value) : Option Assignment :=
  match key with
  | "specfile_path" => some (.specfilePath (asText value))
  | "dist_git_namespace" => some (.distGitNamespace ((asText value).getD ""))
  | "upstream_project_url" => some (.projectUrl (asText value))
  | "upstream_package_name" => some (.projectName (asText value))
  | "downstream_project_url" => some (.downstreamUrl (asText value))
  | "downstream_package_name" => some (.downstreamName (asText value))
  | "dist_git_base_url" => some (.distGitBaseUrl ((asText value).getD ""))
  | "create_tarball_command" => some (.tarballCommand (asTexts value))
  | "current_version_command" => some (.versionCommand ((asTexts value).getD []))
  | "upstream_ref" => some (.projectRef (asText value))
  | "allowed_gpg_keys" => some (.gpgKeys (asTexts value))
  | "create_pr" => some (.createPullRequest (value = .boolean true))
  | "spec_source_id" => some (.specSourceId ((asText value).getD ""))
  | "upstream_tag_template" => some (.tagTemplate ((asText value).getD ""))
  | "patch_generation_ignore_paths" => some (.patchIgnorePaths ((asTexts value).getD []))
  | _ => none

end Assignment

end Packaging.Attributes
