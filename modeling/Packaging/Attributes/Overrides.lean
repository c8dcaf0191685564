import Packaging.Action
import Packaging.Notifications
import Packaging.SyncedFiles

/-! Attributes as a document gives them. What the document does not give is `none`, which differs
from a value that is given and empty.
-/

namespace Packaging

/-- The attributes of a package or a job that a document gives. -/
structure Overrides where
  specfilePath : Option String := none
  syncedFiles : Option SyncedFiles := none
  distGitNamespace : Option String := none
  projectUrl : Option String := none
  projectName : Option String := none
  downstreamUrl : Option String := none
  downstreamName : Option String := none
  distGitBaseUrl : Option String := none
  tarballCommand : Option (List String) := none
  versionCommand : Option (List String) := none
  actions : Option Actions := none
  projectRef : Option String := none
  gpgKeys : Option (List String) := none
  createPullRequest : Option Bool := none
  specSourceId : Option String := none
  tagTemplate : Option String := none
  patchIgnorePaths : Option (List String) := none
  notifications : Option Notifications := none
deriving DecidableEq

namespace Overrides

def texts : Decoder (List String) :=
  Decoder.list Decoder.text

/-- The attributes and their keys, in the order in which a list gives them. -/
def reader : RecordReader Overrides where
  kind := .overrides
  start := {}
  fields := [
    .of "specfile_path" (.optional .text) fun given o => { o with specfilePath := given },
    .of "synced_files" (.optional SyncedFiles.decode)
      fun given o => { o with syncedFiles := given },
    .of "dist_git_namespace" (.optional .text)
      fun given o => { o with distGitNamespace := given },
    .of "upstream_project_url" (.optional .text) fun given o => { o with projectUrl := given },
    .of "upstream_package_name" (.optional .text)
      fun given o => { o with projectName := given },
    .of "downstream_project_url" (.optional .text)
      fun given o => { o with downstreamUrl := given },
    .of "downstream_package_name" (.optional .text)
      fun given o => { o with downstreamName := given },
    .of "dist_git_base_url" (.optional .text) fun given o => { o with distGitBaseUrl := given },
    .of "create_tarball_command" (.optional texts)
      fun given o => { o with tarballCommand := given },
    .of "current_version_command" (.optional texts)
      fun given o => { o with versionCommand := given },
    .of "actions" (.optional Actions.decode) fun given o => { o with actions := given },
    .of "upstream_ref" (.optional .text) fun given o => { o with projectRef := given },
    .of "allowed_gpg_keys" (.optional texts) fun given o => { o with gpgKeys := given },
    .of "create_pr" (.optional .boolean) fun given o => { o with createPullRequest := given },
    .of "spec_source_id" (.optional .text) fun given o => { o with specSourceId := given },
    .of "upstream_tag_template" (.optional .text) fun given o => { o with tagTemplate := given },
    .of "patch_generation_ignore_paths" (.optional texts)
      fun given o => { o with patchIgnorePaths := given },
    .of "notifications" (.optional Notifications.decode)
      fun given o => { o with notifications := given }]

def keys : List String :=
  reader.keys

def decode : Decoder Overrides :=
  reader.decode

/-- A value that may not be given. -/
def orNull {α : Type} (encode : α → Value) (given : Option α) : Value :=
  (given.map encode).getD .null

def encodeTexts (texts : List String) : Value :=
  .list (texts.map .text)

/-- The attributes as a mapping with every key, null under the keys of what is not given. -/
def encode (o : Overrides) : Value :=
  .mapping [
    ("specfile_path", orNull .text o.specfilePath),
    ("synced_files", orNull SyncedFiles.encode o.syncedFiles),
    ("dist_git_namespace", orNull .text o.distGitNamespace),
    ("upstream_project_url", orNull .text o.projectUrl),
    ("upstream_package_name", orNull .text o.projectName),
    ("downstream_project_url", orNull .text o.downstreamUrl),
    ("downstream_package_name", orNull .text o.downstreamName),
    ("dist_git_base_url", orNull .text o.distGitBaseUrl),
    ("create_tarball_command", orNull encodeTexts o.tarballCommand),
    ("current_version_command", orNull encodeTexts o.versionCommand),
    ("actions", orNull Actions.encode o.actions),
    ("upstream_ref", orNull .text o.projectRef),
    ("allowed_gpg_keys", orNull encodeTexts o.gpgKeys),
    ("create_pr", orNull .boolean o.createPullRequest),
    ("spec_source_id", orNull .text o.specSourceId),
    ("upstream_tag_template", orNull .text o.tagTemplate),
    ("patch_generation_ignore_paths", orNull encodeTexts o.patchIgnorePaths),
    ("notifications", orNull Notifications.encode o.notifications)]

end Overrides

end Packaging
