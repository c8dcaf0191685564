import Packaging.Document.Decoding
import Packaging.Document.Format

/-! Errors of package configuration. Each error is a cause, and its wording is a function of the
cause.
-/

namespace Packaging

/-- Why the system refuses a file or a directory. -/
inductive FileFault where
  | notFound
  | notDirectory
  | isDirectory
  | denied
  | tooManyLinks
  | nameTooLong
  | zeroInName
  | notText
  | other (text : String)
deriving DecidableEq

/-- An error of the file system or of a document in it. -/
inductive FileError where
  | refused (path : Path) (fault : FileFault)
  | malformed (format : Format) (path : Path)
  | unsupportedFormat (extension : String)
deriving DecidableEq

inductive GitError where
  | corrupt
  | noRepository (path : String)
  | noReference (reference : String)
  | noFile (path reference : String)
  | notText (path reference : String)
deriving DecidableEq

/-- The things of a configuration that have names. -/
inductive NameSort where
  | jobType
  | trigger
  | action
deriving DecidableEq

/-- Why the value of a key is invalid. -/
inductive Fault where
  | stated (text : String)
  | topLevel
  | missing
  | twoSpellings
  | kind (expected found : Kind)
  | unknown (sort : NameSort) (name : String)
  | mismatch (cause : Mismatch)
deriving DecidableEq

/-- An error of package configuration. -/
inductive Error where
  | configNotFound (searched : List Path)
  | unparsable (cause : Error)
  | missingSpecFile
  | notAJob
  | invalid (field : String) (fault : Fault)
  | file (error : FileError)
  | git (error : GitError)
  | mismatch (cause : Mismatch)
deriving DecidableEq

namespace FileFault

/-- The message of a fault, with the system's number for it where it has one. All other faults are
told as the system words them.
-/
def message : FileFault → String
  | .notFound => "No such file or directory (os error 2)"
  | .notDirectory => "Not a directory (os error 20)"
  | .isDirectory => "Is a directory (os error 21)"
  | .denied => "Permission denied (os error 13)"
  | .tooManyLinks => "Too many levels of symbolic links (os error 40)"
  | .nameTooLong => "File name too long (os error 36)"
  | .zeroInName => "file name contained an unexpected NUL byte"
  | .notText => "stream did not contain valid UTF-8"
  | .other text => text

end FileFault

namespace FileError

/-- The message of an error. What is wrong inside a malformed document is not told. -/
def message : FileError → String
  | .refused path fault => "I/O error at " ++ path.text ++ ": " ++ fault.message
  | .malformed format path =>
    "Failed to parse " ++ format.label ++ " document at " ++ path.text
  | .unsupportedFormat extension => "Unsupported document format: " ++ extension

/-- Whether the error says that a file does not exist. -/
def isNotFound : FileError → Bool
  | .refused _ .notFound => true
  | _ => false

end FileError

namespace Format

/-- The format of a path's extension. -/
def ofPath (path : Path) : Except FileError Format :=
  let extension := path.extension?.getD ""
  match ofExtension? extension with
  | some format => .ok format
  | none => .error (.unsupportedFormat extension)

/-- The value of a text of the format. The path only tells where the text comes from. -/
def read (format : Format) (path : Path) (content : String) : Except FileError Value :=
  match format.read? content with
  | some value => .ok value
  | none => .error (.malformed format path)

end Format

namespace GitError

def message : GitError → String
  | .corrupt => "Git error"
  | .noRepository path => "No git repository at " ++ path
  | .noReference reference => "Reference '" ++ reference ++ "' not found"
  | .noFile path reference => "File '" ++ path ++ "' not found at ref '" ++ reference ++ "'"
  | .notText path reference =>
    "File '" ++ path ++ "' at ref '" ++ reference ++ "' is not valid UTF-8"

/-- Whether the error says that a reference has no such file. -/
def isFileNotFound : GitError → Bool
  | .noFile _ _ => true
  | _ => false

end GitError

namespace NameSort

def phrase : NameSort → String
  | .jobType => "job type"
  | .trigger => "trigger"
  | .action => "action"

/-- The key under which a name of the sort is given. -/
def key : NameSort → String
  | .jobType => "job"
  | .trigger => "trigger"
  | .action => "actions"

end NameSort

namespace Fault

/-- The detail of a fault in messages. -/
def detail : Fault → String
  | .stated text => text
  | .topLevel => "expected a mapping at the top level"
  | .missing => "missing required field"
  | .twoSpellings => "'synced_files' and 'files_to_sync' are mutually exclusive"
  | .kind expected found => "expected " ++ expected.phrase ++ ", found " ++ found.phrase
  | .unknown sort name => "unknown " ++ sort.phrase ++ " '" ++ name ++ "'"
  | .mismatch cause => cause.message

end Fault

namespace Error

def message : Error → String
  | .configNotFound searched =>
    "No packit config found in " ++ Text.quotedList (searched.map (·.text))
  | .unparsable cause => "Cannot parse package config: " ++ cause.message
  | .missingSpecFile => "Spec file was not found"
  | .notAJob => "Provided object is not a JobConfig instance"
  | .invalid field fault => "Invalid value for '" ++ field ++ "': " ++ fault.detail
  | .file error => error.message
  | .git error => error.message
  | .mismatch cause => cause.message

def cause? : Error → Option Error
  | .unparsable cause => some cause
  | _ => none

/-- The error as a failure to parse. A failure to parse is not wrapped again. -/
def asUnparsable : Error → Error
  | .unparsable cause => .unparsable cause
  | error => .unparsable error

/-- The error with its field located below `place`. Only invalid values have a field. -/
def within (place : String) : Error → Error
  | .invalid field fault => .invalid (place ++ "." ++ field) fault
  | error => error

/-- Wrapping twice is wrapping once. -/
theorem asUnparsable_asUnparsable (error : Error)
    : error.asUnparsable.asUnparsable = error.asUnparsable := by
  cases error <;> rfl

end Error

end Packaging
