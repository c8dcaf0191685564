/-! Why a repository has no answer to a question about a name.
-/

namespace Packaging.Git

/-- Nothing has the name, or the repository cannot tell. A broken list of packed references is told
apart, since it is read only once and taken to be empty from then on.
-/
inductive Failure where
  | unknown
  | corrupt
  | brokenList
deriving DecidableEq

namespace Failure

/-- What is there, or a failure to name anything. -/
def orUnknown {α : Type} (found : Option α) : Except Failure α :=
  match found with
  | some value => .ok value
  | none => .error .unknown

end Failure

end Packaging.Git
