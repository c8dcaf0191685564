import Packaging.Git.Identifier
import Packaging.Text.Pieces
import Packaging.Text.Search

/-! Logs of references, a line for each change. A line that is no entry is passed over.
-/

namespace Packaging.Git

/-- An entry of a log: what the reference was changed to, when, and the message that was left. -/
structure LogEntry where
  id : ObjectId
  time : Int
  message : Option (List Char)
deriving DecidableEq

namespace LogEntry

/-- The time that a signature ends with. A signature without one is from the start of 1970, but the
address of its author needs both of its brackets.
-/
def time? (signature : List Char) : Option Int := do
  let before ← Text.beforeLast? ['>'] signature
  if '<' ∉ before || '<' ∈ signature.drop (before.length + 1) then none
  else
    match signature.drop (before.length + 2) with
    | [] => some 0
    | text => (Text.Integer.take? (some 10) text).map (·.1)

def ofLine? (line : List Char) : Option LogEntry := do
  let (_, rest) ← ObjectId.take? line
  let (id, rest) ← ObjectId.take? (← Text.afterFront? [' '] rest)
  let time ← time? (rest.takeWhile (· ≠ '\t'))
  let message := match rest.dropWhile (· ≠ '\t') with
    | _ :: message => some (FileText.untilZero message)
    | [] => none
  return ⟨id, time, message⟩

/-- The entries of a log, the last change first. -/
def ofText (text : List Char) : List LogEntry :=
  ((Text.pieces (· = '\n') text).filterMap ofLine?).reverse

/-- What was checked out before, if the entry tells of a change of that. -/
def leftBehind? (entry : LogEntry) : Option (List Char) := do
  let rest ← Text.after? "checkout: moving from ".toList (← entry.message)
  Text.beforeLast? " to ".toList rest

/-- The last entry of a time, or the first of all if that is later. -/
def atTime? (time : Int) : List LogEntry → Option LogEntry
  | [] => none
  | [entry] => some entry
  | entry :: older => if entry.time ≤ time then some entry else atTime? time older

/-- Numbers up to this one count entries, and greater ones are times. -/
def countLimit : Int := 100000000

/-- The entry that a number means: so many entries before the last one, or the one of that time. -/
def at? (entries : List LogEntry) (number : Int) : Option LogEntry :=
  if 0 ≤ number ∧ number ≤ countLimit then entries[number.toNat]? else atTime? number entries

end LogEntry

end Packaging.Git
