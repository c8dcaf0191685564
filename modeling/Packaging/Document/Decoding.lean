import Packaging.Document.Compact
import Packaging.Text.Quoted

/-! Decoding of values into typed data. A decoder either gives the data or says what it found in
the place of what it expected.
-/

namespace Packaging

/-- The records that a mapping or a list decodes into. -/
inductive RecordKind where
  | notifications
  | pullRequestNotifications
  | jobMetadata
  | overrides
deriving DecidableEq

/-- The kinds of data that are told apart by their form alone. -/
inductive ChoiceKind where
  | actionCommand
  | syncedFile
deriving DecidableEq

inductive Shape where
  | text
  | boolean
  | list
  | mapping
  | word
  | nothing
  | textOrMapping
  | record (kind : RecordKind)
deriving DecidableEq

/-- What a decoder found: a scalar with its content, or that it is a collection. -/
inductive Found where
  | null
  | boolean (given : Bool)
  | integer (number : Int)
  | real (bits : UInt64)
  | text (content : String)
  | list
  | mapping
deriving DecidableEq

/-- The reasons why a value does not decode. -/
inductive Mismatch where
  | wrongType (found : Found) (expected : Shape)
  | negative (number : Int)
  | tooLong (length : Nat)
  | unknownName (name : String) (known : List String)
  | notOneEntry
  | noForm (kind : ChoiceKind)
deriving DecidableEq

namespace RecordKind

/-- The name of a record in messages. -/
def label : RecordKind → String
  | .notifications => "NotificationsConfig"
  | .pullRequestNotifications => "PullRequestNotificationsConfig"
  | .jobMetadata => "JobMetadataConfig"
  | .overrides => "CommonOverrides"

end RecordKind

namespace ChoiceKind

/-- The name of a choice of forms in messages. -/
def label : ChoiceKind → String
  | .actionCommand => "ActionCommand"
  | .syncedFile => "SyncFilesEntry"

end ChoiceKind

namespace Shape

/-- How a message names what was expected. -/
def phrase : Shape → String
  | .text => "a string"
  | .boolean => "a boolean"
  | .list => "a sequence"
  | .mapping => "a map"
  | .word => "u64"
  | .nothing => "unit"
  | .textOrMapping => "string or map"
  | .record kind => "struct " ++ kind.label

end Shape

/-- A text between backticks. -/
def ticked (content : String) : String :=
  "\x60" ++ content ++ "\x60"

namespace Found

/-- How a message names what was found. -/
def phrase : Found → String
  | .null => "null"
  | .boolean given => "boolean " ++ ticked (if given then "true" else "false")
  | .integer number => "integer " ++ ticked (toString number)
  | .real bits => "floating point " ++ ticked (Decimal.text Value.realLayout bits)
  | .text content => "string " ++ Text.quoted content
  | .list => "sequence"
  | .mapping => "map"

end Found

namespace Mismatch

def message : Mismatch → String
  | .wrongType found expected =>
    "invalid type: " ++ found.phrase ++ ", expected " ++ expected.phrase
  | .negative number =>
    "invalid value: integer " ++ ticked (toString number) ++ ", expected " ++ Shape.word.phrase
  | .tooLong length =>
    "invalid length " ++ toString length ++ ", expected fewer elements in array"
  | .unknownName name known =>
    "unknown variant " ++ ticked name ++ ", expected one of "
      ++ ", ".intercalate (known.map ticked)
  | .notOneEntry => "invalid value: map, expected map with a single key"
  | .noForm kind => "data did not match any variant of untagged enum " ++ kind.label

end Mismatch

/-- What a decoder finds in a value. -/
def Value.found : Value → Found
  | .null => .null
  | .boolean given => .boolean given
  | .integer number => .integer number
  | .real bits => .real bits
  | .text content => .text content
  | .list _ => .list
  | .mapping _ => .mapping

/-- A decoder of values. -/
abbrev Decoder (α : Type) := Value → Except Mismatch α

namespace Decoder

/-- Fail because of the kind of a value. -/
def refuse {α : Type} (expected : Shape) (value : Value) : Except Mismatch α :=
  .error (.wrongType value.found expected)

def text : Decoder String
  | .text content => .ok content
  | value => refuse .text value

def boolean : Decoder Bool
  | .boolean given => .ok given
  | value => refuse .boolean value

/-- A number of seconds, which 64 bits hold. A greater number never stands in a document. -/
def word : Decoder UInt64
  | .integer number =>
    if number < 0 then .error (.negative number)
    else if number < Nat.pow 2 64 then .ok (UInt64.ofNat number.toNat)
    else refuse .word (.integer number)
  | value => refuse .word value

/-- Nothing at all. -/
def nothing : Decoder Unit
  | .null => .ok ()
  | value => refuse .nothing value

/-- Each item of a list. The first failure is reported. -/
def items {α : Type} (item : Decoder α) : List Value → Except Mismatch (List α)
  | [] => .ok []
  | value :: rest => do
    let first ← item value
    let others ← items item rest
    return first :: others

def list {α : Type} (item : Decoder α) : Decoder (List α)
  | .list values => items item values
  | value => refuse .list value

/-- What `given` decodes, or null for what is not given. -/
def optional {α : Type} (given : Decoder α) : Decoder (Option α)
  | .null => .ok none
  | value => (given value).map some

/-- One of several things that have names. It may also be written as a mapping of its name to
null.
-/
def named {α : Type} (all : List α) (name : α → String) : Decoder α
  | .text content => find content
  | .mapping [(key, value)] => do
    let found ← find key
    nothing value
    return found
  | .mapping _ => .error .notOneEntry
  | value => refuse .textOrMapping value
where
  /-- The thing of the given name. -/
  find (content : String) : Except Mismatch α :=
    match all.find? fun thing => name thing = content with
    | some thing => .ok thing
    | none => .error (.unknownName content (all.map name))

end Decoder

/-- A part of a record: its key, and how a value changes the record. -/
structure RecordField (α : Type) where
  key : String
  read : Value → Except Mismatch (α → α)

/-- The part that `given` decodes and `put` stores. -/
def RecordField.of {α β : Type} (key : String) (given : Decoder β) (put : β → α → α)
    : RecordField α :=
  ⟨key, fun value => (given value).map put⟩

/-- How a record is read. What no key gives stays as in `start`. -/
structure RecordReader (α : Type) where
  kind : RecordKind
  start : α
  fields : List (RecordField α)

namespace RecordReader

variable {α : Type}

/-- The keys of a record in the order of its parts. -/
def keys (reader : RecordReader α) : List String :=
  reader.fields.map (·.key)

/-- The change that an entry asks for. Unknown keys ask for none. -/
def change (reader : RecordReader α) (key : String) (value : Value)
    : Except Mismatch (α → α) :=
  match reader.fields.find? fun field => field.key = key with
  | some field => field.read value
  | none => .ok id

/-- The record that entries make of `record`, one after the other. -/
def ofEntries (reader : RecordReader α) (record : α)
    : List (String × Value) → Except Mismatch α
  | [] => .ok record
  | (key, value) :: rest => do
    let update ← reader.change key value
    reader.ofEntries (update record) rest

/-- The record that the items of a list make of `record`, in the order of its parts. -/
def ofItems (record : α) : List (RecordField α) → List Value → Except Mismatch α
  | field :: fields, value :: rest => do
    let update ← field.read value
    ofItems (update record) fields rest
  | _, _ => .ok record

/-- The record of a mapping, or of a list that is no longer than the record has parts. -/
def decode (reader : RecordReader α) : Decoder α
  | .mapping entries => reader.ofEntries reader.start entries
  | .list values => do
    let record ← ofItems reader.start reader.fields values
    if reader.fields.length < values.length then throw (.tooLong values.length)
    return record
  | value => Decoder.refuse (.record reader.kind) value

end RecordReader

end Packaging
