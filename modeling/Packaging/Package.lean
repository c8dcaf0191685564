import Packaging.Job

/-! Resolved packages: the path of their document, their attributes and their jobs. Packages are
compared by canonical forms, with the downstream URL that takes effect instead of the explicit
one.
-/

namespace Packaging

/-- A resolved package. -/
structure Package where
  configPath : Option String
  attributes : Attributes
  jobs : List Job
deriving DecidableEq

namespace Package

/-- The entries of a package in the order in which they are declared. -/
def entries (package : Package) : Fields :=
  Attributes.entry "config_file_path" .text package.configPath
  ++ package.attributes.entries
  ++ [("jobs", .list (package.jobs.map fun job => .mapping job.entries))]

/-- The canonical form of a package: its path and attributes in one mapping with its jobs. -/
def form (package : Package) : Value :=
  (Value.mapping package.entries).sorted

/-- The canonical form without the explicit downstream URL. -/
def formWithoutUrl (package : Package) : Value :=
  match package.form with
  | .mapping entries => .mapping (Fields.erase "downstream_project_url" entries)
  | value => value

/-- Whether two packages have the same downstream URL and otherwise the same canonical form. -/
def same (a b : Package) : Bool :=
  a.attributes.effectiveUrl = b.attributes.effectiveUrl && a.formWithoutUrl = b.formWithoutUrl

/-- The stored files, and after them the spec file and the document of the package unless they
are already a source.
-/
def allFiles (package : Package) : SyncedFiles :=
  let files := package.attributes.syncedFiles
  let files := match package.attributes.specfilePath with
    | some spec => files.pushNew (.ofPath spec)
    | none => files
  match filled package.configPath with
  | some path => files.pushNew (.ofPath path)
  | none => files

/-- The attributes of the package, or those of the job at an index. -/
def attributesAt? (package : Package) : Option Nat → Option Attributes
  | none => some package.attributes
  | some index => package.jobs[index]?.map fun job => job.attributes

/-- The package after a change of its attributes, or of those of the job at an index. -/
def changeAt (package : Package) (change : Attributes → Attributes) : Option Nat → Package
  | none => { package with attributes := change package.attributes }
  | some index => { package with
      jobs := package.jobs.modify index fun job =>
        { job with attributes := change job.attributes } }

/-- The package with one more job at the end. -/
def addJob (package : Package) (job : Job) : Package :=
  { package with jobs := package.jobs ++ [job] }

/-- The package without the job at an index. -/
def removeJob (package : Package) (index : Nat) : Package :=
  { package with jobs := package.jobs.eraseIdx index }

/-- The package with another job at an index. -/
def setJob (package : Package) (index : Nat) (job : Job) : Package :=
  { package with jobs := package.jobs.set index job }

/-- The jobs of a type in order. -/
def jobsOfType (package : Package) (type : JobType) : List Job :=
  package.jobs.filter fun job => job.type = type

end Package

/-- Something that a package or a job is compared with. -/
inductive Comparand where
  | package (package : Package)
  | job (job : Job)
  | attributes (attributes : Attributes)
  | value (value : Value)
deriving DecidableEq

/-- Whether the other thing is the same package. Nothing else equals a package. -/
def Package.equalsAny (package : Package) : Comparand → Bool
  | .package other => package.same other
  | _ => false

/-- Whether the other thing is the same job. To compare a job with anything else is an error. -/
def Job.equals? (job : Job) : Comparand → Except Error Bool
  | .job other => .ok (job.same other)
  | _ => .error .notAJob

end Packaging
