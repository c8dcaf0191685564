import Packaging.Git.Identifier
import Packaging.Text.Pieces
import Packaging.Text.Search

/-! Many references in one file, a record for each. A file whose header calls it sorted is searched
by halves and never read as a whole, so that only the record that is found has to be well formed.
-/

namespace Packaging.Git.PackedReferences

/-! ## Files in order -/

/-- Whether the first line, with a line after it, calls the file sorted. -/
def isSorted (content : List Char) : Bool :=
  let header := "# pack-refs with:".toList
  header.isPrefixOf content && '\n' ∈ content
    && Text.occurs " sorted ".toList ((content.takeWhile (· ≠ '\n')).drop header.length)

/-- The text after the first line end, if there is one. -/
def afterLine? (text : List Char) : Option (List Char) :=
  match text.dropWhile (· ≠ '\n') with
  | _ :: rest => some rest
  | [] => none

/-- A file without the remarks at its front. -/
def withoutRemarks? : List (List Char) → Option (List (List Char))
  | [] => some []
  | [line] => if line.head? = some '#' then none else some [line]
  | line :: rest => if line.head? = some '#' then withoutRemarks? rest else some (line :: rest)

/-- How the record at the front of a text compares with a name. What is too short for a record comes
before every name.
-/
def compareRecord (name text : List Char) : Ordering :=
  if text.length < ObjectId.length + 3 then .lt
  else
    compareOfLessAndEq ((text.drop (ObjectId.length + 1)).takeWhile (· ≠ '\n')) name

/-- Where the record that holds a place begins. A line with a caret at its front belongs to the
record before it. The text before the place is given in reverse.
-/
def recordStart : (next : Option Char) → (reversed : List Char) → Nat
  | _, [] => 0
  | some '^', '\n' :: last :: before => recordStart (some last) before
  | _, '\n' :: before => before.length + 1
  | _, c :: before => recordStart (some c) before

/-- How many characters follow from a place to the end of its record, within a text. -/
def recordEnd : List Char → Nat
  | [] => 0
  | '\n' :: '^' :: rest => 2 + recordEnd rest
  | '\n' :: _ => 1
  | _ :: rest => 1 + recordEnd rest

/-- The identifier of the record at the front of a text. The record has a line end, and what follows
a caret in the next line is an identifier as well.
-/
def recordId? (text : List Char) : Option ObjectId := do
  let (id, rest) ← ObjectId.take? text
  match ← afterLine? (rest.drop 1) with
  | '^' :: peeled => if (ObjectId.take? peeled).isSome then some id else none
  | _ => some id

/-- The identifier of a name between two places of a file, found by halving at most `fuel` times. A
record that is found but broken is an error.
-/
def searchSorted (content name : List Char) : (fuel first last : Nat)
    → Except Unit (Option ObjectId)
  | 0, _, _ => .ok none
  | fuel + 1, first, last =>
    if last ≤ first then .ok none
    else
      let middle := first + (last - first) / 2
      let start :=
        first + recordStart content[middle]? ((content.take middle).drop first).reverse
      match compareRecord name (content.drop start) with
      | .lt =>
        searchSorted content name fuel
          (middle + recordEnd ((content.take last).drop middle)) last
      | .gt => searchSorted content name fuel first start
      | .eq =>
        match recordId? (content.drop start) with
        | some id => .ok (some id)
        | none => .error ()

/-- The identifier that a file in order holds for a name. -/
def findSorted (content name : List Char) : Except Unit (Option ObjectId) :=
  match withoutRemarks? (Text.pieces (· = '\n') content) with
  | none => .error ()
  | some lines =>
    let remarks := content.length - (("\n".toList).intercalate lines).length
    searchSorted content name content.length remarks content.length

/-! ## Whole files -/

/-- The records of lines. A line with a caret at its front may follow a record. Every line is ended,
with the exception that nothing has to follow such a line's identifier.
-/
def records? : List (List Char) → Option (List (String × ObjectId))
  | [] => some []
  | [[]] => some []
  | [_] => none
  | line :: next :: rest => do
    let (id, after) ← ObjectId.take? line
    let name ← match after with
      | ' ' :: name => some name
      | _ => none
    let name := if name.getLast? = some '\r' then name.dropLast else name
    let record := (FileText.ofCharacters name, id)
    match next with
    | '^' :: peeled =>
      let (_, after) ← ObjectId.take? peeled
      if rest.isEmpty then if after.isEmpty then some [record] else none
      else (records? rest).map (record :: ·)
    | next => (records? (next :: rest)).map (record :: ·)
termination_by lines => lines.length

/-- All records of a file, the last one first, which counts if a name has several. A file with a
zero character is broken.
-/
def all? (content : List Char) : Option (List (String × ObjectId)) := do
  if '\x00' ∈ content then none
  else
    let records ← records? (← withoutRemarks? (Text.pieces (· = '\n') content))
    return records.reverse

end Packaging.Git.PackedReferences
