import Packaging.Attributes.Overrides

/-! Attributes of a package or a job after its overrides are laid over what it inherits. They
include the downstream URL that was derived when it was first asked for.
-/

namespace Packaging

/-- The place of the distribution's repositories, with a slash at its end. -/
def productionUrl : String := "https://src.fedoraproject.org/"

def defaultNamespace : String := "rpms"

/-- The command that prints the version of a project. -/
def defaultVersionCommand : List String := ["git", "describe", "--tags", "--match", "*"]

/-- The attributes of a package or a job, with their defaults. -/
structure Attributes where
  specfilePath : Option String := none
  syncedFiles : SyncedFiles := .empty
  distGitNamespace : String := defaultNamespace
  projectUrl : Option String := none
  projectName : Option String := none
  downstreamUrl : Option String := none
  downstreamName : Option String := none
  distGitBaseUrl : String := productionUrl
  tarballCommand : Option (List String) := none
  versionCommand : List String := defaultVersionCommand
  actions : Actions := .empty
  projectRef : Option String := none
  gpgKeys : Option (List String) := none
  createPullRequest : Bool := true
  specSourceId : String := "Source0"
  tagTemplate : String := "\x7bversion\x7d"
  patchIgnorePaths : List String := []
  notifications : Notifications := {}
  derivedUrl : Option String := none
deriving DecidableEq

/-- The text of an option, unless it is missing or empty. -/
def filled (given : Option String) : Option String :=
  given.filter (· ≠ "")

theorem filled_eq_none_iff {given : Option String}
    : filled given = none ↔ given = none ∨ given = some "" := by
  cases given <;> simp [filled, Option.filter_some]

theorem filled_eq_some_iff {given : Option String} {text : String}
    : filled given = some text ↔ given = some text ∧ text ≠ "" := by
  simp [filled, Option.filter_eq_some_iff]

namespace Attributes

/-- The given value, or the inherited one. A value that is given empty is its default. -/
def pickFilled {α : Type} (isEmpty : α → Bool) (fallback : α) (given : Option α)
    (inherited : α) : α :=
  match given with
  | none => inherited
  | some value => if isEmpty value then fallback else value

/-- The attributes with every one that `o` gives in the place of the inherited one. A URL that
was derived from the inherited attributes is dropped.
-/
def overlay (inherited : Attributes) (o : Overrides) : Attributes where
  specfilePath := o.specfilePath.or inherited.specfilePath
  syncedFiles := o.syncedFiles.getD inherited.syncedFiles
  distGitNamespace :=
    pickFilled String.isEmpty defaultNamespace o.distGitNamespace inherited.distGitNamespace
  projectUrl := o.projectUrl.or inherited.projectUrl
  projectName := o.projectName.or inherited.projectName
  downstreamUrl := o.downstreamUrl.or inherited.downstreamUrl
  downstreamName := o.downstreamName.or inherited.downstreamName
  distGitBaseUrl :=
    pickFilled String.isEmpty productionUrl o.distGitBaseUrl inherited.distGitBaseUrl
  tarballCommand := o.tarballCommand.or inherited.tarballCommand
  versionCommand :=
    pickFilled List.isEmpty defaultVersionCommand o.versionCommand inherited.versionCommand
  actions := o.actions.getD inherited.actions
  projectRef := o.projectRef.or inherited.projectRef
  gpgKeys := o.gpgKeys.or inherited.gpgKeys
  createPullRequest := o.createPullRequest.getD inherited.createPullRequest
  specSourceId := o.specSourceId.getD inherited.specSourceId
  tagTemplate := o.tagTemplate.getD inherited.tagTemplate
  patchIgnorePaths := o.patchIgnorePaths.getD inherited.patchIgnorePaths
  notifications := o.notifications.getD inherited.notifications
  derivedUrl := none

/-- The attributes of a package that gives `o`. -/
def ofOverrides (o : Overrides) : Attributes :=
  overlay {} o

/-- The URL of the package's repository in the distribution, from the attributes as they are. A
missing name is written `None`.
-/
def packageUrl (attributes : Attributes) : String :=
  attributes.distGitBaseUrl ++ attributes.distGitNamespace ++ "/"
    ++ attributes.downstreamName.getD "None" ++ ".git"

/-- The explicit downstream URL, or else the derived one, or else the one that would be derived.
Nothing changes.
-/
def effectiveUrl (attributes : Attributes) : String :=
  (filled attributes.downstreamUrl).getD (attributes.derivedUrl.getD attributes.packageUrl)

/-- Whether a downstream URL has been derived. -/
def isDerived (attributes : Attributes) : Bool :=
  attributes.derivedUrl.isSome

/-- The attributes after the downstream URL is asked for. Without an explicit URL the package URL
of that moment is kept for good.
-/
def deriveUrl (attributes : Attributes) : Attributes :=
  if (filled attributes.downstreamUrl).isSome then attributes
  else { attributes with
    derivedUrl := some (attributes.derivedUrl.getD attributes.packageUrl) }

/-- The entry of an optional value, which is left out when the value is missing. -/
def entry {α : Type} (key : String) (encode : α → Value) (given : Option α) : Fields :=
  given.toList.map fun value => (key, encode value)

/-- The entries of the attributes in the order in which they are declared. -/
def entries (attributes : Attributes) : Fields :=
  entry "specfile_path" .text attributes.specfilePath
  ++ [("synced_files", attributes.syncedFiles.encode),
    ("dist_git_namespace", .text attributes.distGitNamespace)]
  ++ entry "upstream_project_url" .text attributes.projectUrl
  ++ entry "upstream_package_name" .text attributes.projectName
  ++ entry "downstream_project_url" .text attributes.downstreamUrl
  ++ entry "downstream_package_name" .text attributes.downstreamName
  ++ [("dist_git_base_url", .text attributes.distGitBaseUrl)]
  ++ entry "create_tarball_command" Overrides.encodeTexts attributes.tarballCommand
  ++ [("current_version_command", Overrides.encodeTexts attributes.versionCommand),
    ("actions", attributes.actions.encode)]
  ++ entry "upstream_ref" .text attributes.projectRef
  ++ entry "allowed_gpg_keys" Overrides.encodeTexts attributes.gpgKeys
  ++ [("create_pr", .boolean attributes.createPullRequest),
    ("spec_source_id", .text attributes.specSourceId),
    ("upstream_tag_template", .text attributes.tagTemplate),
    ("patch_generation_ignore_paths", Overrides.encodeTexts attributes.patchIgnorePaths),
    ("notifications", attributes.notifications.encode)]

/-- The canonical form of the attributes. A derived URL is no part of it. -/
def form (attributes : Attributes) : Value :=
  (Value.mapping attributes.entries).sorted

/-- Whether two sets of attributes have the same canonical form. -/
def same (a b : Attributes) : Bool :=
  a.form = b.form

/-- Asking for the downstream URL does not change what it is. -/
theorem effectiveUrl_deriveUrl (attributes : Attributes)
    : attributes.deriveUrl.effectiveUrl = attributes.effectiveUrl := by
  unfold deriveUrl
  split
  · rfl
  · next h =>
    have none : filled attributes.downstreamUrl = none := by simpa using h
    simp [effectiveUrl, none]

end Attributes

end Packaging
