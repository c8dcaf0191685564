import Packaging.Attributes.Basic
import Packaging.Proofs.Document.Records

/-! The attributes one by one. Each has a key, a kind of data and a place in the records, so that
a law about all of them is stated once and proved by cases.
-/

namespace Packaging

/-- The kinds of data that attributes hold. -/
inductive DataKind where
  | text
  | texts
  | files
  | actions
  | flag
  | notifications
deriving DecidableEq

namespace DataKind

/-- The data of a kind. -/
abbrev Data : DataKind → Type
  | .text => String
  | .texts => List String
  | .files => SyncedFiles
  | .actions => Actions
  | .flag => Bool
  | .notifications => Notifications

/-- How a value gives data of a kind. -/
def decode : (kind : DataKind) → Decoder kind.Data
  | .text => Decoder.text
  | .texts => Overrides.texts
  | .files => SyncedFiles.decode
  | .actions => Actions.decode
  | .flag => Decoder.boolean
  | .notifications => Notifications.decode

/-- How data of a kind is written. -/
def encode : (kind : DataKind) → kind.Data → Value
  | .text => .text
  | .texts => Overrides.encodeTexts
  | .files => SyncedFiles.encode
  | .actions => Actions.encode
  | .flag => .boolean
  | .notifications => Notifications.encode

theorem encode_ne_null (kind : DataKind) (data : kind.Data)
    : kind.encode data ≠ .null := by
  cases kind <;> simp [encode, Overrides.encodeTexts, SyncedFiles.encode, Actions.encode,
    Notifications.encode]

end DataKind

/-- An attribute of a package or a job. -/
inductive Attribute where
  | specfilePath
  | syncedFiles
  | distGitNamespace
  | projectUrl
  | projectName
  | downstreamUrl
  | downstreamName
  | distGitBaseUrl
  | tarballCommand
  | versionCommand
  | actions
  | projectRef
  | gpgKeys
  | createPullRequest
  | specSourceId
  | tagTemplate
  | patchIgnorePaths
  | notifications
deriving DecidableEq

namespace Attribute

def all : List Attribute :=
  [.specfilePath, .syncedFiles, .distGitNamespace, .projectUrl, .projectName, .downstreamUrl,
    .downstreamName, .distGitBaseUrl, .tarballCommand, .versionCommand, .actions, .projectRef,
    .gpgKeys, .createPullRequest, .specSourceId, .tagTemplate, .patchIgnorePaths,
    .notifications]

def key : Attribute → String
  | .specfilePath => "specfile_path"
  | .syncedFiles => "synced_files"
  | .distGitNamespace => "dist_git_namespace"
  | .projectUrl => "upstream_project_url"
  | .projectName => "upstream_package_name"
  | .downstreamUrl => "downstream_project_url"
  | .downstreamName => "downstream_package_name"
  | .distGitBaseUrl => "dist_git_base_url"
  | .tarballCommand => "create_tarball_command"
  | .versionCommand => "current_version_command"
  | .actions => "actions"
  | .projectRef => "upstream_ref"
  | .gpgKeys => "allowed_gpg_keys"
  | .createPullRequest => "create_pr"
  | .specSourceId => "spec_source_id"
  | .tagTemplate => "upstream_tag_template"
  | .patchIgnorePaths => "patch_generation_ignore_paths"
  | .notifications => "notifications"

/-- The kind of data that an attribute holds. -/
abbrev kind : Attribute → DataKind
  | .syncedFiles => .files
  | .tarballCommand | .versionCommand | .gpgKeys | .patchIgnorePaths => .texts
  | .actions => .actions
  | .createPullRequest => .flag
  | .notifications => .notifications
  | _ => .text

/-- What a document gives for an attribute. -/
def given : (a : Attribute) → Overrides → Option a.kind.Data
  | .specfilePath, o => o.specfilePath
  | .syncedFiles, o => o.syncedFiles
  | .distGitNamespace, o => o.distGitNamespace
  | .projectUrl, o => o.projectUrl
  | .projectName, o => o.projectName
  | .downstreamUrl, o => o.downstreamUrl
  | .downstreamName, o => o.downstreamName
  | .distGitBaseUrl, o => o.distGitBaseUrl
  | .tarballCommand, o => o.tarballCommand
  | .versionCommand, o => o.versionCommand
  | .actions, o => o.actions
  | .projectRef, o => o.projectRef
  | .gpgKeys, o => o.gpgKeys
  | .createPullRequest, o => o.createPullRequest
  | .specSourceId, o => o.specSourceId
  | .tagTemplate, o => o.tagTemplate
  | .patchIgnorePaths, o => o.patchIgnorePaths
  | .notifications, o => o.notifications

/-- What is given, with something else given for one attribute. -/
def give : (a : Attribute) → Option a.kind.Data → Overrides → Overrides
  | .specfilePath, data, o => { o with specfilePath := data }
  | .syncedFiles, data, o => { o with syncedFiles := data }
  | .distGitNamespace, data, o => { o with distGitNamespace := data }
  | .projectUrl, data, o => { o with projectUrl := data }
  | .projectName, data, o => { o with projectName := data }
  | .downstreamUrl, data, o => { o with downstreamUrl := data }
  | .downstreamName, data, o => { o with downstreamName := data }
  | .distGitBaseUrl, data, o => { o with distGitBaseUrl := data }
  | .tarballCommand, data, o => { o with tarballCommand := data }
  | .versionCommand, data, o => { o with versionCommand := data }
  | .actions, data, o => { o with actions := data }
  | .projectRef, data, o => { o with projectRef := data }
  | .gpgKeys, data, o => { o with gpgKeys := data }
  | .createPullRequest, data, o => { o with createPullRequest := data }
  | .specSourceId, data, o => { o with specSourceId := data }
  | .tagTemplate, data, o => { o with tagTemplate := data }
  | .patchIgnorePaths, data, o => { o with patchIgnorePaths := data }
  | .notifications, data, o => { o with notifications := data }

/-- The data of an attribute, if it has any. Only optional attributes may have none. -/
def value : (a : Attribute) → Attributes → Option a.kind.Data
  | .specfilePath, x => x.specfilePath
  | .syncedFiles, x => some x.syncedFiles
  | .distGitNamespace, x => some x.distGitNamespace
  | .projectUrl, x => x.projectUrl
  | .projectName, x => x.projectName
  | .downstreamUrl, x => x.downstreamUrl
  | .downstreamName, x => x.downstreamName
  | .distGitBaseUrl, x => some x.distGitBaseUrl
  | .tarballCommand, x => x.tarballCommand
  | .versionCommand, x => some x.versionCommand
  | .actions, x => some x.actions
  | .projectRef, x => x.projectRef
  | .gpgKeys, x => x.gpgKeys
  | .createPullRequest, x => some x.createPullRequest
  | .specSourceId, x => some x.specSourceId
  | .tagTemplate, x => some x.tagTemplate
  | .patchIgnorePaths, x => some x.patchIgnorePaths
  | .notifications, x => some x.notifications

/-- What given data becomes: an empty namespace, base URL or version command is the built-in one,
and all other data stays as it is.
-/
def settle : (a : Attribute) → a.kind.Data → a.kind.Data
  | .distGitNamespace, (text : String) => if text = "" then defaultNamespace else text
  | .distGitBaseUrl, (text : String) => if text = "" then productionUrl else text
  | .versionCommand, (command : List String) =>
    if command = [] then defaultVersionCommand else command
  | _, data => data

theorem mem_all (a : Attribute)
    : a ∈ all := by
  cases a <;> decide

theorem key_injective (a b : Attribute) (same : a.key = b.key)
    : a = b := by
  have listed : ∀ a ∈ all, ∀ b ∈ all, a.key = b.key → a = b := by decide
  exact listed a a.mem_all b b.mem_all same

theorem keys_eq
    : Overrides.keys = all.map key :=
  rfl

theorem given_give (a : Attribute) (data : Option a.kind.Data) (o : Overrides)
    : a.given (a.give data o) = data := by
  cases a <;> rfl

/-- What is given for one attribute does not matter for another. -/
theorem given_give_of_ne {a b : Attribute} (differs : a ≠ b) (data : Option b.kind.Data)
    (o : Overrides)
    : a.given (b.give data o) = a.given o := by
  cases b <;> cases a <;> first | rfl | exact absurd rfl differs

/-- Overrides that give the same for each attribute are the same. -/
theorem overrides_ext {o p : Overrides} (same : ∀ a : Attribute, a.given o = a.given p)
    : o = p := by
  cases o
  cases p
  simp only [Overrides.mk.injEq]
  exact ⟨same .specfilePath, same .syncedFiles, same .distGitNamespace, same .projectUrl,
    same .projectName, same .downstreamUrl, same .downstreamName, same .distGitBaseUrl,
    same .tarballCommand, same .versionCommand, same .actions, same .projectRef, same .gpgKeys,
    same .createPullRequest, same .specSourceId, same .tagTemplate, same .patchIgnorePaths,
    same .notifications⟩

/-- Attributes with the same data and the same derived URL are the same. -/
theorem attributes_ext {x y : Attributes} (same : ∀ a : Attribute, a.value x = a.value y)
    (derived : x.derivedUrl = y.derivedUrl)
    : x = y := by
  cases x
  cases y
  simp only [Attributes.mk.injEq]
  exact ⟨same .specfilePath, Option.some.inj (same .syncedFiles),
    Option.some.inj (same .distGitNamespace), same .projectUrl, same .projectName,
    same .downstreamUrl, same .downstreamName, Option.some.inj (same .distGitBaseUrl),
    same .tarballCommand, Option.some.inj (same .versionCommand),
    Option.some.inj (same .actions), same .projectRef, same .gpgKeys,
    Option.some.inj (same .createPullRequest), Option.some.inj (same .specSourceId),
    Option.some.inj (same .tagTemplate), Option.some.inj (same .patchIgnorePaths),
    Option.some.inj (same .notifications), derived⟩

-----------------------------------------------------------------------------------------
-- Laws of all attributes
-----------------------------------------------------------------------------------------

/-- A text that is given empty is its default. -/
theorem pickFilled_text (fallback : String) (given : Option String) (inherited : String)
    : some (Attributes.pickFilled String.isEmpty fallback given inherited)
      = (given.map fun text => if text = "" then fallback else text).or (some inherited) := by
  cases given <;> simp [Attributes.pickFilled]

/-- A command that is given empty is its default. -/
theorem pickFilled_texts (fallback : List String) (given : Option (List String))
    (inherited : List String)
    : some (Attributes.pickFilled List.isEmpty fallback given inherited)
      = (given.map fun texts => if texts = [] then fallback else texts).or
          (some inherited) := by
  cases given <;> simp [Attributes.pickFilled]

/-- Overlaid attributes have the given data where some is given, and else the inherited data. -/
theorem value_overlay (a : Attribute) (inherited : Attributes) (o : Overrides)
    : a.value (inherited.overlay o)
      = ((a.given o).map a.settle).or (a.value inherited) := by
  have given_or {α : Type} (given other : Option α)
      : given.or other = (given.map fun data => data).or other := by
    cases given <;> rfl
  have given_getD {α : Type} (given : Option α) (other : α)
      : some (given.getD other) = (given.map fun data => data).or (some other) := by
    cases given <;> rfl
  cases a with
  | distGitNamespace => exact pickFilled_text _ _ _
  | distGitBaseUrl => exact pickFilled_text _ _ _
  | versionCommand => exact pickFilled_texts _ _ _
  | specfilePath => exact given_or _ _
  | projectUrl => exact given_or _ _
  | projectName => exact given_or _ _
  | downstreamUrl => exact given_or _ _
  | downstreamName => exact given_or _ _
  | tarballCommand => exact given_or _ _
  | projectRef => exact given_or _ _
  | gpgKeys => exact given_or _ _
  | syncedFiles => exact given_getD _ _
  | actions => exact given_getD _ _
  | createPullRequest => exact given_getD _ _
  | specSourceId => exact given_getD _ _
  | tagTemplate => exact given_getD _ _
  | patchIgnorePaths => exact given_getD _ _
  | notifications => exact given_getD _ _

/-- The entry under the key of an attribute gives its data, null giving none. -/
theorem change_key (a : Attribute) (value : Value)
    : Overrides.reader.change a.key value
      = (Decoder.optional a.kind.decode value).map a.give := by
  have found : (Overrides.reader.fields.find? fun field => field.key = a.key)
      = some (.of a.key (Decoder.optional a.kind.decode) a.give) := by
    cases a <;> rfl
  rw [RecordReader.change, found]
  rfl

/-- The attributes as the parts of overrides. -/
def parts : Overrides.reader.Parts Attribute fun a => Option a.kind.Data where
  all := all
  key := key
  decode a := Decoder.optional a.kind.decode
  get := given
  put := give
  mem_all := mem_all
  injective := key_injective
  keys := keys_eq
  change := change_key
  get_put := given_give
  get_put_of_ne := given_give_of_ne
  ext := overrides_ext

theorem given_start (a : Attribute)
    : a.given Overrides.reader.start = none := by
  cases a <;> rfl

/-- An attribute that is told gives nothing where its entry is missing or null, and else what the
entry decodes to.
-/
theorem told_iff {a : Attribute} {field? : String → Option Value} {o : Overrides}
    : parts.Told field? o a
      ↔ match Value.present? (field? a.key) with
        | none => a.given o = none
        | some value => ∃ data, a.kind.decode value = .ok data ∧ a.given o = some data := by
  cases found : field? a.key with
  | none =>
      refine (parts.told_of_missing found).trans ?_
      show a.given o = a.given Overrides.reader.start ↔ a.given o = none
      rw [a.given_start]
  | some value =>
      refine (parts.told_of_found found).trans ?_
      show Decoder.optional a.kind.decode value = .ok (a.given o) ↔ _
      by_cases null : value = .null <;>
        simp [Decoder.optional_eq_ok_iff, null, Value.present?, Option.filter_some]

/-- The entries of attributes are those that have data, each written under its key. -/
theorem entries_eq (x : Attributes)
    : x.entries = Fields.ofTable all key fun a => (a.value x).map a.kind.encode := by
  simp [Fields.ofTable, Attributes.entries, Attributes.entry, all, key, value, DataKind.encode,
    Option.toList_map, Function.comp_def]

end Attribute

end Packaging
