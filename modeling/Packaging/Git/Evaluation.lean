import Packaging.Git.Reference
import Packaging.Git.Remote
import Packaging.Git.Revision
import Packaging.Moment.Reading
import Packaging.Text.Expression.Reader

/-! Objects of revisions. A name is looked up in several ways, and each step goes on from what the
steps before it have led to.
-/

namespace Packaging.Git

/-- What a revision has led to so far: its name, a reference, or an object. -/
structure Standing where
  name : List Char
  reference : Option Reference := none
  object : Option Object := none

namespace Database

/-! ## Names -/

/-- The object whose identifier begins with the given digits. Fewer than four digits are not
enough, and neither are digits with which several identifiers begin.
-/
def abbreviated (db : Database) (digits : List Char) : Except Failure (Option Object) :=
  if digits.isEmpty || ObjectId.length < digits.length || !digits.all ObjectId.isHex then .ok none
  else if digits.length < 4 then .error .corrupt
  else
    match ObjectId.whole? digits with
    | some id => db.find? id
    | none =>
      let known := (db.objects.map (·.1) ++ db.broken).eraseDups
      match known.filter (digits.map Char.toLower).isPrefixOf with
      | [] => .ok none
      | [id] => db.find? id
      | _ => .error .corrupt

/-- The digits of a description: a name, a count of commits, and the digits after `-g`, which
stands nowhere else. The text is given in reverse.
-/
def described? (reversed : List Char) : Option (List Char) :=
  match reversed.dropWhile ObjectId.isHex with
  | 'g' :: '-' :: rest =>
    if ReferenceName.hasPair 'g' '-' rest then none
    else
      match rest.takeWhile Char.isDigit, rest.dropWhile Char.isDigit with
      | _ :: _, '-' :: c :: _ =>
        if c = '\n' then none else some (reversed.takeWhile ObjectId.isHex).reverse
      | _, _ => none
  | _ => none

/-- The object that a name stands for: a whole identifier, a reference, the front of an
identifier, or a description that ends with one. A lone at sign means the current commit.
-/
def object (db : Database) (text : List Char) : Except Failure Object := do
  let whole ← match ObjectId.whole? text with
    | some id => db.find? id
    | none => pure none
  match whole with
  | some found => return found
  | none =>
    let name := if text = ['@'] then "HEAD" else String.ofList text
    match ← db.named? name with
    | some (_, id) => db.get id
    | none =>
      let short ← if text.length < ObjectId.length then db.abbreviated text else pure none
      match short with
      | some found => return found
      | none =>
        let digits ← Failure.orUnknown (described? text.reverse)
        Failure.orUnknown (← db.abbreviated digits)

/-- The object of what a revision has led to. A reference that leads nowhere has none. -/
def load (db : Database) (standing : Standing) : Except Failure Object :=
  match standing.object, standing.reference with
  | some object, _ => .ok object
  | none, some ⟨_, .object id⟩ => db.get id
  | none, some ⟨_, .reference other⟩ =>
    match db.resolveName other with
    | .ok (some (_, id)) => db.get id
    | .ok none => .error .corrupt
    | .error .brokenList => .error .brokenList
    | .error _ => .error .corrupt
  | none, none => if standing.name.isEmpty then .error .unknown else db.object standing.name

/-! ## Records -/

/-- What was checked out before the last `count` changes of that. -/
def leftBehind (db : Database) (standing : Standing) (count : Nat) : Except Failure Standing := do
  if !standing.name.isEmpty || standing.reference.isSome then throw .unknown
  if (← db.target? "HEAD").isNone then throw .corrupt
  let names := (← db.log "HEAD").filterMap LogEntry.leftBehind?
  let name ← Failure.orUnknown names[count - 1]?
  match ← db.named? (FileText.ofCharacters name) with
  | some (found, id) => return { standing with reference := some ⟨found, .object id⟩ }
  | none =>
    let object ← Failure.orUnknown (← db.abbreviated name)
    return { standing with object := some object }

/-- The reference whose log is meant. Without a name it is that of the current branch. -/
def logged (db : Database) (standing : Standing) (number : Int) : Except Failure Reference := do
  match standing.reference with
  | some reference => return reference
  | none =>
    if number ≠ 0 && standing.name = "HEAD".toList then db.reference "HEAD"
    else
      let (name, id) ← Failure.orUnknown (← db.named? (String.ofList standing.name))
      return ⟨name, .object id⟩

/-- What a reference held earlier: so many changes ago, or at a time. No change at all means what it
holds now.
-/
def earlier (db : Database) (standing : Standing) (number : Int) : Except Failure Standing := do
  let reference ← db.logged standing number
  let id ←
    if number = 0 then
      match reference.target with
      | .object id => pure id
      | .reference _ => throw .corrupt
    else
      match db.log reference.name with
      | .ok entries => pure (← Failure.orUnknown (LogEntry.at? entries number)).id
      | .error _ => throw .corrupt
  return { standing with reference := none, object := some (← db.get id) }

def upstream (db : Database) (standing : Standing) : Except Failure Standing := do
  let name ← match standing.reference with
    | some reference => pure reference.name
    | none => pure (← Failure.orUnknown (← db.named? (String.ofList standing.name))).1
  let branch ← Failure.orUnknown (ReferenceName.branch? name)
  let followed ← db.reference (← db.config.upstream branch)
  return { standing with reference := some followed }

/-- What a text in braces behind an at sign leads to: a number of changes, the followed branch, or a
time.
-/
def recorded (db : Database) (standing : Standing) (inside : List Char)
    : Except Failure Standing := do
  if standing.object.isSome then throw .unknown
  let isSigned := inside.head? = some '-'
  match Text.Integer.whole? inside with
  | some number =>
    if isSigned && number = 0 then throw .unknown
    if number < 0 then db.leftBehind standing number.natAbs else db.earlier standing number
  | none =>
    if isSigned then throw .unknown
    if inside = "u".toList || inside = "upstream".toList then db.upstream standing
    else
      let time ← Failure.orUnknown (Moment.read? db.now inside)
      db.earlier standing time

/-! ## Messages -/

/-- The latest commit whose message matches a pattern, among those that objects stand for and all
before them. An empty pattern matches nothing.
-/
def latestMatch (db : Database) (pattern : List Char) (objects : Except Failure (List Object))
    : Except Failure Object := do
  if pattern.isEmpty then throw .unknown
  let expression ← Failure.orUnknown (Text.Expression.read? pattern)
  let commits := (db.objects.history (← objects)).filter fun commit =>
    expression.occursIn commit.message
  return .commit (← Failure.orUnknown (ObjectStore.latest? commits))

/-! ## Steps -/

/-- The entry at a path of a tree, as an object. -/
def entryObject? (tree : Tree) (path : List Char) : Option Object :=
  match Tree.find? tree (Tree.names (String.ofList path).toUTF8.toList) with
  | some (.tree below) => some (.tree below)
  | some (.blob _ _) => some .blob
  | _ => none

/-- What a path leads to. Without anything before it, a slash at its front begins a pattern for
messages, and other paths would be of files that are not yet committed.
-/
def atPath (db : Database) (standing : Standing) (path : List Char) : Except Failure Object := do
  if standing.name.isEmpty && standing.reference.isNone && standing.object.isNone then
    match path with
    | '/' :: pattern => db.latestMatch pattern db.allObjects
    | _ => throw .corrupt
  else
    let tree ← Failure.orUnknown (db.objects.tree? (← db.load standing))
    if path.isEmpty then return .tree tree
    Failure.orUnknown (entryObject? tree path)

/-- What a step leads to. -/
def take (db : Database) (standing : Standing) (step : RevisionStep)
    : Except Failure Standing := do
  let onObject (found : Object → Except Failure Object) : Except Failure Standing := do
    return { standing with object := some (← found (← db.load standing)) }
  match step with
  | .start => onObject .ok
  | .parent number => onObject fun object => Failure.orUnknown (db.objects.parent? number object)
  | .ancestor count =>
    onObject fun object => Failure.orUnknown (db.objects.ancestor? count object)
  | .untag => onObject fun object => Failure.orUnknown (db.objects.behindTags? object)
  | .sort sort => onObject fun object => Failure.orUnknown (db.objects.peel? sort object)
  | .latestMatch pattern =>
    onObject fun object => db.latestMatch pattern do
      let _ ← Failure.orUnknown (db.objects.commit? object)
      return [object]
  | .recorded inside => db.recorded standing inside
  | .path path => return { standing with object := some (← db.atPath standing path) }
  | .malformed => throw .unknown

def revision (db : Database) (revision : Revision) : Except Failure Object := do
  let standing ← revision.steps.foldlM db.take { name := revision.name }
  db.load standing

def treeAt (db : Database) (text : String) : Except Failure Tree := do
  if '\x00' ∈ text.toList then throw .corrupt
  let object ← db.revision (Revision.ofString text)
  Failure.orUnknown (db.objects.tree? object)

end Database

end Packaging.Git
