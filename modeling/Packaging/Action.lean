import Packaging.Error

/-! Steps of packaging for which a package gives commands of its own. A package gives at most one
command for a step.
-/

namespace Packaging

inductive ActionName where
  | postClone
  | preSync
  | createPatches
  | prepareFiles
  | createArchive
  | getCurrentVersion
  | fixSpecFile
  | changelogEntry
deriving DecidableEq

namespace ActionName

/-- All steps, in the order in which they are listed. -/
def all : List ActionName :=
  [.postClone, .preSync, .createPatches, .prepareFiles, .createArchive,
    .getCurrentVersion, .fixSpecFile, .changelogEntry]

def label : ActionName → String
  | .postClone => "post-upstream-clone"
  | .preSync => "pre-sync"
  | .createPatches => "create-patches"
  | .prepareFiles => "prepare-files"
  | .createArchive => "create-archive"
  | .getCurrentVersion => "get-current-version"
  | .fixSpecFile => "fix-spec-file"
  | .changelogEntry => "changelog-entry"

theorem mem_all (name : ActionName)
    : name ∈ all := by
  cases name <;> decide

def ofLabel (name : String) : Except Error ActionName :=
  match all.find? fun action => action.label = name with
  | some action => .ok action
  | none => .error (.invalid NameSort.action.key (.unknown .action name))

/-- A step is given by its name. -/
def decode : Decoder ActionName :=
  Decoder.named all label

def encode (name : ActionName) : Value :=
  .text name.label

end ActionName

/-- What is run for a step: one command line, or several in order. -/
inductive ActionCommand where
  | single (line : String)
  | several (lines : List String)
deriving DecidableEq

namespace ActionCommand

def lines : ActionCommand → List String
  | .single line => [line]
  | .several lines => lines

/-- A command is a text or a list of texts. -/
def decode : Decoder ActionCommand
  | .text line => .ok (.single line)
  | .list items =>
    match Decoder.items Decoder.text items with
    | .ok lines => .ok (.several lines)
    | .error _ => .error (.noForm .actionCommand)
  | _ => .error (.noForm .actionCommand)

/-- A command in the form in which it was given. -/
def encode : ActionCommand → Value
  | .single line => .text line
  | .several lines => .list (lines.map .text)

end ActionCommand

/-- The commands that a package gives for steps. -/
structure Actions where
  get? : ActionName → Option ActionCommand

namespace Actions

def empty : Actions :=
  ⟨fun _ => none⟩

/-- The commands with `command` for the step `name`, where none removes what was given. -/
def assign (actions : Actions) (name : ActionName) (command : Option ActionCommand) : Actions :=
  ⟨fun other => if other = name then command else actions.get? other⟩

/-- Commands are equal when they are equal for every step. -/
@[ext] theorem ext {a b : Actions} (h : ∀ name, a.get? name = b.get? name)
    : a = b := by
  cases a
  cases b
  exact congrArg mk (funext h)

instance : DecidableEq Actions := fun a b =>
  decidable_of_iff (∀ name ∈ ActionName.all, a.get? name = b.get? name)
    ⟨fun h => ext fun name => h name (ActionName.mem_all name), fun h _ _ => h ▸ rfl⟩

/-- The commands that the entries of a mapping give. The name of a step is read before its
command.
-/
def ofEntries (actions : Actions) : List (String × Value) → Except Mismatch Actions
  | [] => .ok actions
  | (key, value) :: rest => do
    let name ← ActionName.decode (.text key)
    let command ← ActionCommand.decode value
    (actions.assign name (some command)).ofEntries rest

/-- Commands are a mapping of steps to commands. -/
def decode : Decoder Actions
  | .mapping entries => empty.ofEntries entries
  | value => Decoder.refuse .mapping value

/-- The commands as a mapping, in the order of steps. -/
def encode (actions : Actions) : Value :=
  .mapping (ActionName.all.filterMap fun name =>
    (actions.get? name).map fun command => (name.label, command.encode))

end Actions

end Packaging
