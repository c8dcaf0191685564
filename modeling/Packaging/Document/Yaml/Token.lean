/-! The tokens of YAML text. The block structure that indentation expresses is already spelled
out in them.
-/

namespace Packaging.Yaml

/-- A token. The end of the text has none. -/
inductive Token where
  | version (major minor : Nat)
  | tagDirective (handle lead : List Char)
  | documentStart
  | documentEnd
  | blockSequenceStart
  | blockMappingStart
  | blockEnd
  | flowSequenceStart
  | flowSequenceEnd
  | flowMappingStart
  | flowMappingEnd
  | blockEntry
  | flowEntry
  | key
  | value
  | alias (name : List Char)
  | anchor (name : List Char)
  | tag (handle suffix : List Char)
  /-- A scalar, and whether it was written without quotes and on no block of its own. -/
  | scalar (content : List Char) (plain : Bool)
deriving DecidableEq

end Packaging.Yaml
