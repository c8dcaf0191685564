import Packaging.Event
import Packaging.Job

/-! Packages and jobs as a document declares them, before defaults and inheritance. The key of an
invalid value is part of the error, and keys that nobody reads are reported.
-/

namespace Packaging

/-- The package part of a document. A document without the key `jobs` differs from one with an
empty list of jobs.
-/
structure PackageDeclaration where
  configPath : Option String
  overrides : Overrides
  jobs : Option (List Value)
deriving DecidableEq

structure JobDeclaration where
  type : JobType
  trigger : Trigger
  metadata : Metadata
  overrides : Overrides
deriving DecidableEq

namespace Declaration

/-- The key of the files to copy. -/
def syncedFilesKey : String := "synced_files"

/-- Another spelling of the key of the files to copy. -/
def syncedFilesSynonym : String := "files_to_sync"

/-- Rename the other spelling of the files to copy. To give both is ambiguous. -/
def renameSynonym (fields : Fields) : Except Error Fields :=
  match fields.find? syncedFilesSynonym with
  | none => .ok fields
  | some files =>
    if fields.has syncedFilesKey then .error (.invalid syncedFilesKey .twoSpellings)
    else .ok ((fields.erase syncedFilesSynonym).insert syncedFilesKey files)

/-- Move the entries nested under `metadata` up, except for keys that are already given there. -/
def liftMetadata (fields : Fields) : Except Error Fields :=
  match fields.find? "metadata" with
  | none => .ok fields
  | some .null => .ok (fields.erase "metadata")
  | some (.mapping nested) =>
    .ok (nested.foldl (fun fields entry => fields.insertNew entry.1 entry.2)
      (fields.erase "metadata"))
  | some value => .error (.invalid "metadata" (.kind .mapping value.kind))

/-- The thing whose name stands under `key`. -/
def required {α : Type} (fields : Fields) (key : String) (ofLabel : String → Except Error α)
    : Except Error α :=
  match fields.find? key with
  | none => .error (.invalid key .missing)
  | some .null => .error (.invalid key .missing)
  | some (.text name) => ofLabel name
  | some value => .error (.invalid key (.kind .text value.kind))

/-- Fail with the first key whose entry does not decode alone. -/
def checkEach {α : Type} (reader : RecordReader α) : Fields → Except Error Unit
  | [] => .ok ()
  | (key, value) :: rest =>
    match reader.decode (.mapping [(key, value)]) with
    | .error cause => .error (.invalid key (.mismatch cause))
    | .ok _ => checkEach reader rest

def record {α : Type} (reader : RecordReader α) (fields : Fields) : Except Error α := do
  checkEach reader fields
  (reader.decode (.mapping fields)).mapError .mismatch

def unknownKeys (fields : Fields) : List String :=
  fields.keys.filter fun key => key ∉ Overrides.keys

/-- Report the keys that are no attribute, if there are any. -/
def reportUnknown (scope : Scope) (fields : Fields) : Reported Unit :=
  if (unknownKeys fields).isEmpty then pure ()
  else Traced.note (.unprocessed scope (unknownKeys fields))

/-- The raw jobs of a package. The key `jobs` with null declares that there are none. -/
def rawJobs (fields : Fields) : Except Error (Option (List Value)) :=
  match fields.find? "jobs" with
  | none => .ok none
  | some .null => .ok (some [])
  | some (.list jobs) => .ok (some jobs)
  | some value => .error (.invalid "jobs" (.kind .list value.kind))

/-- The path of the document, as the document gives it. -/
def documentPath (fields : Fields) : Except Error (Option String) :=
  match fields.find? "config_file_path" with
  | none => .ok none
  | some .null => .ok none
  | some (.text path) => .ok (some path)
  | some value => .error (.invalid "config_file_path" (.kind .text value.kind))

end Declaration

open Declaration

def PackageDeclaration.ofFields (fields : Fields) : Reported PackageDeclaration := do
  let fields ← renameSynonym fields
  let jobs ← rawJobs fields
  let fields := fields.erase "jobs"
  let path ← documentPath fields
  let fields := fields.erase "config_file_path"
  reportUnknown .package fields
  let overrides ← record Overrides.reader fields
  return ⟨path, overrides, jobs⟩

/-- The job of a mapping. Its own settings are read before its attributes. -/
def JobDeclaration.ofFields (fields : Fields) : Reported JobDeclaration := do
  let fields ← renameSynonym fields
  let fields ← liftMetadata fields
  let type ← required fields "job" JobType.ofLabel
  let fields := fields.erase "job"
  let trigger ← required fields "trigger" Trigger.ofLabel
  let fields := fields.erase "trigger"
  let metadata ← record Metadata.reader (fields.filter fun entry => entry.1 ∈ Metadata.keys)
  let fields := fields.filter fun entry => entry.1 ∉ Metadata.keys
  reportUnknown .job fields
  let overrides ← record Overrides.reader fields
  return ⟨type, trigger, metadata, overrides⟩

def JobDeclaration.ofValue : Value → Reported JobDeclaration
  | .mapping fields => ofFields fields
  | value => throw (.invalid "job" (.kind .mapping value.kind))

end Packaging
