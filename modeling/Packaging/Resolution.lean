import Packaging.Declaration
import Packaging.Package

/-! Resolution of documents into packages. Defaults, hints and inheritance come in here and
nowhere else.
-/

namespace Packaging

/-- What the finder of a document knows about it. A hint fills what the document leaves open. -/
structure Hints where
  configPath : Option String := none
  repoName : Option String := none
  specPath : Option String := none
deriving DecidableEq

/-- The build target of the default jobs. -/
def defaultTarget : String := "fedora-stable"

/-- The declarations of a package that has no key `jobs`. -/
def defaultJobs : List Value :=
  [.mapping [("job", .text "copr_build"), ("targets", .list [.text defaultTarget]),
      ("trigger", .text "pull_request")],
    .mapping [("job", .text "tests"), ("targets", .list [.text defaultTarget]),
      ("trigger", .text "pull_request")],
    .mapping [("dist_git_branches", .list [.text "fedora-all"]),
      ("job", .text "propose_downstream"), ("trigger", .text "release")]]

/-- The job that a value declares for a package with the attributes `inherited`. -/
def Job.resolve (inherited : Attributes) (raw : Value) : Reported Job := do
  let declared ← JobDeclaration.ofValue raw
  return {
    type := declared.type
    trigger := declared.trigger
    metadata := declared.metadata
    attributes := inherited.overlay declared.overrides }

/-- The jobs that values declare, the first of them at `index`. An error names the place of its
job.
-/
def Job.resolveAll (inherited : Attributes) (index : Nat) : List Value → Reported (List Job)
  | [] => return []
  | raw :: rest => do
    let job ← (Job.resolve inherited raw).mapError (.within ("jobs[" ++ toString index ++ "]"))
    let jobs ← resolveAll inherited (index + 1) rest
    return job :: jobs

namespace Hints

/-- The entries of a document after the path of the document is filled in. A path that the
document gives as a text with content stays.
-/
def inject (hints : Hints) (fields : Fields) : Fields :=
  match hints.configPath with
  | none => fields
  | some path =>
    match fields.find? "config_file_path" with
    | some (.text given) =>
      if given = "" then fields.insert "config_file_path" (.text path) else fields
    | _ => fields.insert "config_file_path" (.text path)

/-- The attributes after the path of the spec file is filled in. There has to be one. -/
def fillSpec (hints : Hints) (attributes : Attributes) : Except Error Attributes :=
  if (filled attributes.specfilePath).isSome then .ok attributes
  else
    match filled hints.specPath with
    | some path => .ok { attributes with specfilePath := some path }
    | none => .error .missingSpecFile

/-- A name that is given and not empty, or else the name of the repository if it is known. -/
def fillName (hints : Hints) (name : Option String) : Option String :=
  if (filled name).isSome then name else hints.repoName.or name

/-- The attributes after both names of the package are filled in. -/
def fillNames (hints : Hints) (attributes : Attributes) : Attributes :=
  { attributes with
    projectName := hints.fillName attributes.projectName
    downstreamName := hints.fillName attributes.downstreamName }

/-- The package of a mapping into which the hints are already injected. -/
def build (hints : Hints) (fields : Fields) : Reported Package := do
  let declared ← PackageDeclaration.ofFields fields
  let attributes ← hints.fillSpec (.ofOverrides declared.overrides)
  let attributes := hints.fillNames attributes
  let jobs ← Job.resolveAll attributes 0 (declared.jobs.getD defaultJobs)
  return ⟨declared.configPath, attributes, jobs⟩

/-- A failure to resolve a document. It is reported and wrapped, except for a missing spec file,
which says nothing against the document.
-/
def refuse (document : Value) : Error → Reported Package
  | .missingSpecFile => throw .missingSpecFile
  | error => do
    Traced.note (.unparsable document error)
    throw error.asUnparsable

def resolve (hints : Hints) : Value → Reported Package
  | .mapping fields =>
    tryCatch (hints.build (hints.inject fields)) (refuse (.mapping (hints.inject fields)))
  | document => refuse document (.invalid "document" .topLevel)

end Hints

end Packaging
