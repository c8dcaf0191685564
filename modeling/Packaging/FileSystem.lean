import Packaging.Error
import Packaging.Text.Pieces

/-! A file system: what stands at each location, what of it cannot be opened, and the working
directory. Relative paths start there, and a path is followed component by component.
-/

namespace Packaging

/-- A location: the names on the way from the root. -/
abbrev Location := List String

/-- What stands at a location. -/
inductive Entry where
  | file (content : ByteArray)
  | directory
  | link (target : String)

namespace Entry

/-- Files are equal by their bytes, and links by the text of their target. -/
def decideEq : (a b : Entry) → Decidable (a = b)
  | file a, file b => decidable_of_iff (a.data = b.data) (by simp [ByteArray.ext_iff])
  | link a, link b => decidable_of_iff (a = b) (by simp)
  | directory, directory => isTrue rfl
  | file _, link _ | file _, directory | link _, file _ | link _, directory | directory, file _
  | directory, link _ => isFalse Entry.noConfusion

instance : DecidableEq Entry := decideEq

end Entry

/-- A file system. The root always is a directory. What stands at a location with a refusal cannot
be opened: such a directory is not listed, and such a file is not read.
-/
structure FileSystem where
  entries : List (Location × Entry)
  working : Location
  refusals : List (Location × FileFault) := []
deriving DecidableEq

namespace FileSystem

/-- A path that consists of the given components, from the root. -/
def pathText (location : Location) : String :=
  if location.isEmpty then "/" else String.join (location.map ("/" ++ ·))

/-- The components of a path. A slash at either end adds an empty component. -/
def components (path : String) : List String :=
  (Text.pieces (· = '/') path.toList).map String.ofList

/-- Whether a path starts from the root. -/
def isAbsolute (path : String) : Bool :=
  path.toList.head? = some '/'

/-- Where a path starts from. -/
def origin (fs : FileSystem) (path : String) : Location :=
  if isAbsolute path then [] else fs.working

/-- What stands at a location. -/
def entry? (fs : FileSystem) (location : Location) : Option Entry :=
  if location.isEmpty then some .directory else fs.entries.lookup location

/-- The greatest number of bytes of a name. -/
def nameLimit : Nat := 255

/-- The number of bytes that no path reaches. -/
def pathLimit : Nat := 4096

/-- Follow components from what stands at `location`. Every component needs a directory to start
from. At most `links` symbolic links are followed; a link continues with its target.
-/
def follow (fs : FileSystem) (links : Nat) (location : Location) (found : Entry)
    : List String → Except FileFault (Location × Entry)
  | [] => .ok (location, found)
  | name :: rest =>
    if found ≠ .directory then .error .notDirectory
    else if name = "" ∨ name = "." then fs.follow links location found rest
    else if name = ".." then fs.follow links location.dropLast .directory rest
    else if nameLimit < name.utf8ByteSize then .error .nameTooLong
    else
      match fs.entry? (location ++ [name]) with
      | none => .error .notFound
      | some (.link target) =>
        match links with
        | 0 => .error .tooManyLinks
        | links + 1 =>
          fs.follow links (if isAbsolute target then [] else location) .directory
            (components target ++ rest)
      | some next => fs.follow links (location ++ [name]) next rest
termination_by components => (links, components.length)

/-- How many symbolic links a path may lead through. -/
def linkLimit : Nat := 40

/-- What a path leads to: a location and the file or directory there. -/
def find (fs : FileSystem) (path : String) : Except FileFault (Location × Entry) :=
  if '\x00' ∈ path.toList then .error .zeroInName
  else if path = "" then .error .notFound
  else if pathLimit ≤ path.utf8ByteSize then .error .nameTooLong
  else fs.follow linkLimit (fs.origin path) .directory (components path)

/-- Whether a path leads to a file. -/
def isFile (fs : FileSystem) (path : String) : Bool :=
  match fs.find path with
  | .ok (_, .file _) => true
  | _ => false

/-- Whether a path leads to a directory. -/
def isDirectory (fs : FileSystem) (path : String) : Bool :=
  match fs.find path with
  | .ok (_, .directory) => true
  | _ => false

/-- What a path leads to, unless that cannot be opened. -/
def opened (fs : FileSystem) (path : String) : Except FileFault (Location × Entry) :=
  match fs.find path with
  | .error fault => .error fault
  | .ok (location, entry) =>
    match fs.refusals.lookup location with
    | some fault => .error fault
    | none => .ok (location, entry)

/-- The bytes of the file that a path leads to. -/
def readBytes (fs : FileSystem) (path : String) : Except FileFault ByteArray :=
  match fs.opened path with
  | .ok (_, .file content) => .ok content
  | .ok _ => .error .isDirectory
  | .error fault => .error fault

/-- The text of the file at a path. -/
def readText (fs : FileSystem) (path : Path) : Except FileError String :=
  match fs.readBytes path.text with
  | .error fault => .error (.refused path fault)
  | .ok content =>
    match String.fromUTF8? content with
    | some text => .ok text
    | none => .error (.refused path .notText)

/-- The document at a path. Its format is known before the file is read. -/
def load (fs : FileSystem) (path : Path) : Except FileError Value := do
  let format ← Format.ofPath path
  let content ← fs.readText path
  format.read path content

/-- The names of what stands directly below a location. -/
def children (fs : FileSystem) (location : Location) : List String :=
  fs.entries.filterMap fun entry =>
    match entry.1.getLast? with
    | some name => if entry.1.dropLast = location then some name else none
    | none => none

/-- The ways from a location to the files below it, without those behind links to directories. -/
def filesBelow (fs : FileSystem) (location : Location) : List (List String) :=
  fs.entries.filterMap fun entry =>
    let way := entry.1.drop location.length
    if location.isPrefixOf entry.1 && fs.isFile (pathText entry.1) then some way else none

/-- The path of a name directly inside the directory at a path. -/
def pathBelow (directory name : String) : String :=
  if directory.toList.getLast? = some '/' then directory ++ name else directory ++ "/" ++ name

/-- The names of the files directly inside a directory, in ascending order. What is no directory
has none, and a file counts only if its own path leads to it. A directory that cannot be opened is
not listed.
-/
def fileNames (fs : FileSystem) (directory : Path) : Except FileError (List String) :=
  if fs.isDirectory directory.text then
    match fs.opened directory.text with
    | .error fault => .error (.refused directory fault)
    | .ok (location, _) =>
      .ok (((fs.children location).filter fun name =>
        fs.isFile (pathBelow directory.text name)).mergeSort (· ≤ ·))
  else .ok []

/-- The path of the working directory, unless it is gone. -/
def workingPath (fs : FileSystem) : Except FileError Path :=
  match fs.entry? fs.working with
  | some .directory => .ok (Path.ofString (pathText fs.working))
  | _ => .error (.refused ⟨"."⟩ .notFound)

/-- The file system with `entry` at `location`, in the place of what stood there. -/
def put (fs : FileSystem) (location : Location) (entry : Entry) : FileSystem :=
  { fs with entries := fs.entries.filter (·.1 ≠ location) ++ [(location, entry)] }

/-- The file system without what stands at or below `location`. -/
def remove (fs : FileSystem) (location : Location) : FileSystem :=
  { fs with entries := fs.entries.filter fun entry => !location.isPrefixOf entry.1 }

/-- Go on from a location to a directory of the given name, which is made unless it exists. -/
def enter (state : FileSystem × Location) (name : String) : FileSystem × Location :=
  match state.1.follow linkLimit state.2 .directory [name] with
  | .ok (location, .directory) => (state.1, location)
  | _ => (state.1.put (state.2 ++ [name]) .directory, state.2 ++ [name])

/-- Make the directory at a path, with the directories on the way. -/
def makeDirectory (fs : FileSystem) (path : String) : FileSystem × Location :=
  (components path).foldl enter (fs, fs.origin path)

/-- Put an entry at a path, with the directories on the way. -/
def write (fs : FileSystem) (path : String) (entry : Entry) : FileSystem :=
  let parts := components path
  let (fs, location) := parts.dropLast.foldl enter (fs, fs.origin path)
  match parts.getLast? with
  | some name => fs.put (location ++ [name]) entry
  | none => fs

/-- A file system with nothing but its working directory. -/
def atDirectory (working : Location) : FileSystem :=
  (makeDirectory { entries := [], working } (pathText working)).1

end FileSystem

end Packaging
