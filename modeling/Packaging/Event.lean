import Packaging.Error
import Packaging.Traced

/-! Events that reading a configuration reports beside its outcome. An event is told by its kind
and written by its message and fields.
-/

namespace Packaging

/-- How grave an event is. -/
inductive Level where
  | info
  | warning
  | error
deriving DecidableEq

def Level.label : Level → String
  | .info => "INFO"
  | .warning => "WARN"
  | .error => "ERROR"

/-- Whether keys belong to a package or to a job. -/
inductive Scope where
  | package
  | job
deriving DecidableEq

def Scope.label : Scope → String
  | .package => "package"
  | .job => "job"

/-- Where a document stands: in a directory or in a project. -/
inductive Place where
  | path (path : Path)
  | file (name : String)
deriving DecidableEq

/-- An event. -/
inductive Event where
  | unprocessed (scope : Scope) (keys : List String)
  | unparsable (document : Value) (error : Error)
  | unloadable (place : Place)
  | ambiguousOrder
  | noConfig (names : List String) (reference repository : String)
  | noReleases
deriving DecidableEq

namespace Event

/-- The level of an event. Keys that nobody reads and a project without a document deserve a
warning.
-/
def level : Event → Level
  | .unprocessed _ _ => .warning
  | .unparsable _ _ => .error
  | .unloadable _ => .error
  | .ambiguousOrder => .error
  | .noConfig _ _ _ => .warning
  | .noReleases => .info

def message : Event → String
  | .unprocessed _ _ => "Following keys were not processed"
  | .unparsable _ _ => "Cannot parse package config"
  | .unloadable _ => "Cannot load package config"
  | .ambiguousOrder => "Ambiguous usage of try_local_dir_first and try_local_dir_last"
  | .noConfig _ _ _ => "No config file found"
  | .noReleases => "We couldn't track any upstream releases"

/-- The fields of an event. -/
def fields : Event → List (String × String)
  | .unprocessed scope keys => [("scope", scope.label), ("keys", Text.quotedList keys)]
  | .unparsable document error => [("document", document.compact), ("error", error.message)]
  | .unloadable (.path path) => [("path", path.text)]
  | .unloadable (.file name) => [("file", name)]
  | .noConfig names reference repository =>
    [("names", Text.quotedList names), ("reference", reference), ("repo", repository)]
  | .ambiguousOrder => []
  | .noReleases => []

end Event

/-- A computation that reports events. -/
abbrev Reported (α : Type) := Traced Event Error α

/-- A step of a computation that asks others: a question of some kind, or an event. -/
inductive Step (Q : Type) where
  | asked (question : Q)
  | reported (event : Event)
deriving DecidableEq

namespace Step

/-- The questions among the steps of a trace, in order. -/
def questions {Q : Type} (trace : List (Step Q)) : List Q :=
  trace.filterMap fun
    | asked question => some question
    | reported _ => none

/-- The events among the steps of a trace, in order. -/
def events {Q : Type} (trace : List (Step Q)) : List Event :=
  trace.filterMap fun
    | asked _ => none
    | reported event => some event

end Step

end Packaging
