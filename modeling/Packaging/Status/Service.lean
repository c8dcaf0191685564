import Packaging.Event
import Packaging.Status.Record

/-! Services that know about a package, and inquiries of them. Services are known by what they
answer, and an inquiry leaves what it asked in its trace.
-/

namespace Packaging.Status

inductive QueryError where
  | failed (message cause : String)
  | incomplete (message : String)
  | tooManyPages
deriving DecidableEq

def QueryError.message : QueryError → String
  | .failed message cause => message ++ ": " ++ cause
  | .incomplete message => "Package configuration incomplete: " ++ message
  | .tooManyPages => "Page number out of range"

/-- What services are asked. -/
inductive Query where
  | pullRequests
  | branches
  | specVersion (branch : String)
  | releases
  | completedBuilds (package : String) (days : Nat)
  | updates (package : String) (page : UInt32)
  | coprBuilds (limit : Nat)
deriving DecidableEq

/-- What the services of a package answer. A branch may have no known version, and a project may
have no service for its releases.
-/
structure Services where
  pullRequests : Except QueryError (List PullRequest)
  branches : Except QueryError (List String)
  specVersion : (branch : String) → Except QueryError (Option String)
  releases : Option (Except QueryError (List Release))
  completedBuilds : (package : String) → (days : Nat) → Except QueryError (List Build)
  updates : (package : String) → (page : UInt32) → Except QueryError UpdatePage
  coprBuilds : (limit : Nat) → Except QueryError (List CoprBuild)

/-- An inquiry of services. -/
abbrev Inquiry (α : Type) := Traced (Step Query) QueryError α

/-- Ask one query that has this answer. -/
def ask {α : Type} (query : Query) (answer : Except QueryError α) : Inquiry α :=
  ⟨[.asked query], answer⟩

end Packaging.Status
