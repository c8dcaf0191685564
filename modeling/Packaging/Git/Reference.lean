import Packaging.FileSystem
import Packaging.Git.Config.Basic
import Packaging.Git.Failure
import Packaging.Git.Log
import Packaging.Git.Object
import Packaging.Git.PackedReferences
import Packaging.Git.ReferenceName

/-! References: names of objects, each in a file of its own or in one file for many. A reference may
lead to another one, and the last on the way has the object.
-/

namespace Packaging.Git

/-- What a reference holds: an object, or the name of another reference. -/
inductive Target where
  | object (id : ObjectId)
  | reference (name : String)
deriving DecidableEq

structure Reference where
  name : String
  target : Target
deriving DecidableEq

/-- A repository as far as names and objects go. Several working directories may have one `shared`
directory, and what is the own of one of them is in its `directory`. Once the list of packed
references was found broken, it counts as `withoutList`. The time `now` gives a meaning to dates
that are told from the present.
-/
structure Database where
  files : FileSystem
  directory : Location
  shared : Location
  objects : ObjectStore
  config : Config
  withoutList : Bool
  now : Int

namespace Target

/-- What the file of a reference holds. -/
def ofText? (content : List Char) : Option Target :=
  match Text.afterFront? "ref: ".toList content with
  | some _ =>
    match (FileText.trimRight content).drop 5 with
    | [] => none
    | name => some (.reference (FileText.ofCharacters (FileText.untilZero name)))
  | none =>
    match ObjectId.take? content with
    | some (id, []) => some (.object id)
    | some (id, c :: _) =>
      if c = '\x00' || Text.Integer.isBlank c then some (.object id) else none
    | none => none

end Target

namespace Database

/-! ## Objects -/

/-- The identifiers that have files of their own on the disk. Objects are not kept there, so these
files cannot be read as objects.
-/
def broken (db : Database) : List ObjectId :=
  (db.files.filesBelow (db.shared ++ ["objects"])).filterMap fun names =>
    match names with
    | [first, rest] =>
      let digits := (first ++ rest).toList
      if first.length = 2 && ObjectId.whole? digits = some digits then some digits else none
    | _ => none

/-- The object of an identifier, if there is one. -/
def find? (db : Database) (id : ObjectId) : Except Failure (Option Object) :=
  if id ∈ db.broken then .error .corrupt else .ok (db.objects.get? id)

def get (db : Database) (id : ObjectId) : Except Failure Object := do
  Failure.orUnknown (← db.find? id)

/-! ## Names -/

/-- The path of a file with the given name for a reference. -/
def path (db : Database) (name : String) (file : String) : String :=
  FileSystem.pathText (if ReferenceName.isOwn name then db.directory else db.shared) ++ "/" ++ file

/-- What the file of a name holds, if there is one. -/
def loose? (db : Database) (name : String) : Except Failure (Option Target) :=
  match db.files.readBytes (db.path name name) with
  | .ok content =>
    match Target.ofText? (FileText.characters content) with
    | some target => .ok (some target)
    | none => .error .corrupt
  | .error .notFound => .ok none
  | .error .notDirectory => .ok none
  | .error .isDirectory => .ok none
  | .error .nameTooLong => .error .unknown
  | .error _ => .error .corrupt

/-- The characters of the list of packed references. A missing list is empty. -/
def list (db : Database) : Except Failure (List Char) :=
  match db.files.readBytes (FileSystem.pathText db.shared ++ "/packed-refs") with
  | .ok content => .ok (FileText.characters content)
  | .error .notFound => .ok []
  | .error .notDirectory => .ok []
  | .error _ => .error .corrupt

/-- All records of the list of packed references. -/
def allPacked (db : Database) : Except Failure (List (String × ObjectId)) := do
  let content ← db.list
  if db.withoutList then return []
  match PackedReferences.all? content with
  | some records => return records
  | none => throw .brokenList

/-- What the list of packed references holds for a name. -/
def packed? (db : Database) (name : String) : Except Failure (Option Target) := do
  let content ← db.list
  if PackedReferences.isSorted content then
    match PackedReferences.findSorted content (FileText.characters name.toUTF8) with
    | .ok found => return found.map .object
    | .error () => throw .corrupt
  else return ((← db.allPacked).lookup name).map .object

/-- What a reference holds. Its own file comes before the list. -/
def target? (db : Database) (name : String) : Except Failure (Option Target) := do
  match ← db.loose? name with
  | some target => return some target
  | none => db.packed? name

/-- The last reference that a reference leads to, and its object. At most `steps` other references
are followed.
-/
def resolve (db : Database) (steps : Nat) (name : String)
    : Except Failure (Option (String × ObjectId)) := do
  match ← db.target? name with
  | none => return none
  | some (.object id) => return some (name, id)
  | some (.reference other) =>
    match steps with
    | 0 => throw .corrupt
    | steps + 1 => db.resolve steps other

/-- How many references a reference may lead through. -/
def stepLimit : Nat := 5

/-- The full name that a text spells. Slashes in a row count as one. -/
def fullName (text : String) : Except Failure String := do
  let name := String.ofList (ReferenceName.tidied text.toList)
  if !ReferenceName.isFull name then throw .unknown
  if ReferenceName.sizeLimit < name.utf8ByteSize then throw .corrupt
  return name

/-- The object of a full name. What is no full name means nothing. -/
def resolveName (db : Database) (text : String) : Except Failure (Option (String × ObjectId)) := do
  db.resolve stepLimit (← fullName text)

/-- The last reference and its object for the first of some names that has one. Names that are not
full are passed over, except for the last one.
-/
def firstOf (db : Database) : List String → Except Failure (Option (String × ObjectId))
  | [] => return none
  | name :: rest =>
    if !ReferenceName.isFull name then
      if rest.isEmpty then .error .unknown else db.firstOf rest
    else do
      match ← db.resolveName name with
      | some found => return some found
      | none => db.firstOf rest

/-- The last reference and its object for a name that may be short. -/
def named? (db : Database) (name : String) : Except Failure (Option (String × ObjectId)) :=
  db.firstOf (ReferenceName.candidates name)

/-- The reference of a full name, wherever it leads. -/
def reference (db : Database) (text : String) : Except Failure Reference := do
  let name ← fullName text
  let target ← Failure.orUnknown (← db.target? name)
  return ⟨name, target⟩

/-- The log of a reference. One that has no log yet gets an empty one, which needs a place. -/
def log (db : Database) (name : String) : Except Failure (List LogEntry) :=
  match db.files.readBytes (db.path name ("logs/" ++ name)) with
  | .ok content => .ok (LogEntry.ofText (FileText.characters content))
  | .error .notFound => .ok []
  | .error _ => .error .corrupt

/-- The full names of references that have files of their own, in ascending order. -/
def looseNames (db : Database) : List String :=
  let directory := db.shared ++ ["refs"]
  let names := (db.files.filesBelow directory).map fun names =>
    "refs/" ++ String.intercalate "/" names
  (names.filter fun name =>
    !".lock".toList.isSuffixOf name.toList
      && match db.loose? name with
        | .ok found => found.isSome
        | .error _ => false).mergeSort (· ≤ ·)

/-- The full names of all references whose names are in order. -/
def allNames (db : Database) : Except Failure (List String) := do
  let loose := db.looseNames
  let packed := ((← db.allPacked).map (·.1)).filter fun name =>
    "refs/".toList.isPrefixOf name.toList && name ∉ loose
  return (loose ++ (packed.eraseDups.mergeSort (· ≤ ·))).filter ReferenceName.isFull

/-- The objects of all references. A reference that leads nowhere has none. -/
def allObjects (db : Database) : Except Failure (List Object) := do
  let found ← (← db.allNames).mapM fun name => do
    match db.resolveName name with
    | .ok none => return none
    | .ok (some (_, id)) => return some (← db.get id)
    | .error .unknown => return none
    | .error _ => throw .corrupt
  return found.filterMap id

end Database

end Packaging.Git
