/-! The file names under which a configuration document is looked up. Earlier names win over later
ones.
-/

namespace Packaging

/-- A file name of a configuration document. -/
inductive ConfigName where
  | hiddenYaml
  | hiddenYml
  | hiddenJson
  | yaml
  | yml
  | json
deriving DecidableEq

namespace ConfigName

/-- All names, the first to be tried at the front. -/
def all : List ConfigName :=
  [.hiddenYaml, .hiddenYml, .hiddenJson, .yaml, .yml, .json]

/-- The name as it stands in a directory. -/
def label : ConfigName → String
  | .hiddenYaml => ".packit.yaml"
  | .hiddenYml => ".packit.yml"
  | .hiddenJson => ".packit.json"
  | .yaml => "packit.yaml"
  | .yml => "packit.yml"
  | .json => "packit.json"

end ConfigName

end Packaging
