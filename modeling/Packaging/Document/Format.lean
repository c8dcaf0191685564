import Packaging.Document.Json
import Packaging.Document.Yaml.Reading
import Packaging.Path

/-! The formats of configuration documents. The extension of a document's path decides its
format.
-/

namespace Packaging

/-- A format of documents. -/
inductive Format where
  | yaml
  | json
deriving DecidableEq

namespace Format

/-- The name of a format in messages. -/
def label : Format → String
  | .yaml => "YAML"
  | .json => "JSON"

/-- The format of an extension, in letters of either case. -/
def ofExtension? (extension : String) : Option Format :=
  let lower := String.ofList (extension.toList.map Char.toLower)
  if lower = "yaml" ∨ lower = "yml" then some .yaml
  else if lower = "json" then some .json
  else none

/-- The value that a text of the format stands for, unless the text is malformed. An empty YAML
text stands for null.
-/
def read? : Format → String → Option Value
  | .yaml, text => Yaml.read? text
  | .json, text => Json.read? text

end Format

end Packaging
