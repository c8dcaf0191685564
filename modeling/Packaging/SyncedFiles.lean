import Packaging.Document.Decoding

/-! Files that are copied into the distribution's repository. A list of them may name a source
more than once, unless every entry comes in by way of `pushNew` or `offer`.
-/

namespace Packaging

/-- A file or directory to copy, and where to. -/
structure SyncedFile where
  source : String
  destination : String
deriving DecidableEq

namespace SyncedFile

/-- A file that keeps its path. -/
def ofPath (path : String) : SyncedFile :=
  ⟨path, path⟩

/-- A file is given as a path that it keeps, or as a mapping with both of its paths. -/
def decode : Decoder SyncedFile
  | .text path => .ok (ofPath path)
  | .mapping entries =>
    match Fields.find? "src" entries, Fields.find? "dest" entries with
    | some (.text source), some (.text destination) => .ok ⟨source, destination⟩
    | _, _ => .error (.noForm .syncedFile)
  | _ => .error (.noForm .syncedFile)

/-- A file as a mapping with both of its paths. -/
def encode (file : SyncedFile) : Value :=
  .mapping [("src", .text file.source), ("dest", .text file.destination)]

/-- Reading a written file gives the file. -/
@[simp] theorem decode_encode (file : SyncedFile)
    : decode file.encode = .ok file :=
  rfl

end SyncedFile

structure SyncedFiles where
  files : List SyncedFile
deriving DecidableEq

namespace SyncedFiles

def empty : SyncedFiles :=
  ⟨[]⟩

def size (synced : SyncedFiles) : Nat :=
  synced.files.length

/-- The list with `file` at its end. -/
def push (synced : SyncedFiles) (file : SyncedFile) : SyncedFiles :=
  ⟨synced.files ++ [file]⟩

def hasSource (synced : SyncedFiles) (source : String) : Bool :=
  synced.files.any fun file => file.source = source

/-- The list with `file` at its end, unless some file already comes from its source. -/
def pushNew (synced : SyncedFiles) (file : SyncedFile) : SyncedFiles :=
  if synced.hasSource file.source then synced else synced.push file

/-- The list after `file` is offered, and whether it was appended. It is not when some file already
comes from its source, wherever that one goes.
-/
def offer (synced : SyncedFiles) (file : SyncedFile) : SyncedFiles × Bool :=
  if synced.hasSource file.source then (synced, false) else (synced.push file, true)

def decode : Decoder SyncedFiles := fun value =>
  (Decoder.list SyncedFile.decode value).map SyncedFiles.mk

def encode (synced : SyncedFiles) : Value :=
  .list (synced.files.map SyncedFile.encode)

end SyncedFiles

end Packaging
