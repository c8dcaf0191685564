import Packaging.Attributes.Basic

/-! Jobs: an automated action, what starts it, its own settings, and a complete set of attributes.
A job is compared and written by its canonical form.
-/

namespace Packaging

inductive JobType where
  | proposeDownstream
  | build
  | syncFromDownstream
  | coprBuild
  | productionBuild
  | kojiBuild
  | tests
  | bodhiUpdate
  | vmImageBuild
deriving DecidableEq

namespace JobType

/-- All types, in the order in which they are listed. -/
def all : List JobType :=
  [.proposeDownstream, .build, .syncFromDownstream, .coprBuild, .productionBuild, .kojiBuild,
    .tests, .bodhiUpdate, .vmImageBuild]

def label : JobType → String
  | .proposeDownstream => "propose_downstream"
  | .build => "build"
  | .syncFromDownstream => "sync_from_downstream"
  | .coprBuild => "copr_build"
  | .productionBuild => "production_build"
  | .kojiBuild => "koji_build"
  | .tests => "tests"
  | .bodhiUpdate => "bodhi_update"
  | .vmImageBuild => "vm_image_build"

def ofLabel (name : String) : Except Error JobType :=
  match all.find? fun type => type.label = name with
  | some type => .ok type
  | none => .error (.invalid NameSort.jobType.key (.unknown .jobType name))

/-- A type is given by its name. -/
def decode : Decoder JobType :=
  Decoder.named all label

def encode (type : JobType) : Value :=
  .text type.label

end JobType

inductive Trigger where
  | release
  | pullRequest
  | commit
deriving DecidableEq

namespace Trigger

/-- All triggers, in the order in which they are listed. -/
def all : List Trigger :=
  [.release, .pullRequest, .commit]

def label : Trigger → String
  | .release => "release"
  | .pullRequest => "pull_request"
  | .commit => "commit"

def ofLabel (name : String) : Except Error Trigger :=
  match all.find? fun trigger => trigger.label = name with
  | some trigger => .ok trigger
  | none => .error (.invalid NameSort.trigger.key (.unknown .trigger name))

/-- A trigger is given by its name. -/
def decode : Decoder Trigger :=
  Decoder.named all label

def encode (trigger : Trigger) : Value :=
  .text trigger.label

end Trigger

/-- The settings that only a job has. The timeout is in seconds. -/
structure Metadata where
  targets : List String := []
  distGitBranches : List String := []
  branch : Option String := none
  scratch : Bool := false
  timeout : UInt64 := 7200
  owner : Option String := none
  project : Option String := none
deriving DecidableEq

namespace Metadata

def reader : RecordReader Metadata where
  kind := .jobMetadata
  start := {}
  fields := [
    .of "targets" Overrides.texts fun given m => { m with targets := given },
    .of "dist_git_branches" Overrides.texts fun given m => { m with distGitBranches := given },
    .of "branch" (.optional .text) fun given m => { m with branch := given },
    .of "scratch" .boolean fun given m => { m with scratch := given },
    .of "timeout" .word fun given m => { m with timeout := given },
    .of "owner" (.optional .text) fun given m => { m with owner := given },
    .of "project" (.optional .text) fun given m => { m with project := given }]

def keys : List String :=
  reader.keys

def decode : Decoder Metadata :=
  reader.decode

/-- The entry of a list, which is left out when the list is empty. -/
def listEntry (key : String) (texts : List String) : Fields :=
  if texts.isEmpty then [] else [(key, Overrides.encodeTexts texts)]

/-- The entries of the settings in the order in which they are declared. Only the timeout is
always there.
-/
def entries (m : Metadata) : Fields :=
  listEntry "targets" m.targets
  ++ listEntry "dist_git_branches" m.distGitBranches
  ++ Attributes.entry "branch" .text m.branch
  ++ (if m.scratch then [("scratch", .boolean true)] else [])
  ++ [("timeout", .integer m.timeout.toNat)]
  ++ Attributes.entry "owner" .text m.owner
  ++ Attributes.entry "project" .text m.project

def form (m : Metadata) : Value :=
  (Value.mapping m.entries).sorted

end Metadata

structure Job where
  type : JobType
  trigger : Trigger
  metadata : Metadata := {}
  attributes : Attributes
deriving DecidableEq

namespace Job

/-- The entries of a job in the order in which they are declared. -/
def entries (job : Job) : Fields :=
  [("job", job.type.encode), ("trigger", job.trigger.encode)]
  ++ job.metadata.entries ++ job.attributes.entries

/-- The canonical form of a job: its type, trigger, settings and attributes in one mapping. -/
def form (job : Job) : Value :=
  (Value.mapping job.entries).sorted

/-- A job as it is shown to people: its entries in the order in which they are declared. -/
def display (job : Job) : String :=
  "JobConfig: " ++ (Value.mapping job.entries).compact

/-- Whether two jobs have the same canonical form. -/
def same (a b : Job) : Bool :=
  a.form = b.form

end Job

end Packaging
