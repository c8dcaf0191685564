import Packaging.Git.Identifier

/-! Configuration of git repositories: settings in order, and what their values mean. Of several
settings of one name the last counts. Values are kept byte by byte, since they need not be text.
-/

namespace Packaging.Git

/-- A setting: its section and name, and its value unless it has none. -/
structure Setting where
  key : String
  value : Option (List Char)
deriving DecidableEq

/-- The settings of a repository in order. -/
abbrev Config := List Setting

namespace Config

def get? (config : Config) (key : String) : Option Setting :=
  config.reverse.find? (·.key = key)

/-- The value of the last setting of a name. -/
def value? (config : Config) (key : String) : Option (List Char) :=
  (config.get? key).bind (·.value)

def settingsOf (config : Config) (key : String) : List Setting :=
  config.filter (·.key = key)

/-- The factor of a unit, which may stand behind a number. -/
def unit? (text : List Char) : Option Int :=
  match text.map Char.toLower with
  | [] => some 1
  | ['k'] => some (Nat.pow 2 10)
  | ['m'] => some (Nat.pow 2 20)
  | ['g'] => some (Nat.pow 2 30)
  | _ => none

/-- The whole number that a text spells. It is multiplied in 64 bits, and the product has to fit
into 32 bits.
-/
def int? (text : List Char) : Option Int := do
  let (number, rest) ← Text.Integer.take? none text
  let product := (number * (← unit? rest)).bmod (Nat.pow 2 64)
  if Text.Integer.fits 32 product then some product else none

/-- Whether a value means yes. A setting without a value does. -/
def bool? (value : Option (List Char)) : Option Bool :=
  match value with
  | none => some true
  | some text =>
    let lower := String.ofList (text.map Char.toLower)
    if lower ∈ ["true", "yes", "on"] then some true
    else if lower ∈ ["false", "no", "off", ""] then some false
    else (int? text).map (· ≠ 0)

/-- A value in a form that reads back. -/
def quoted (value : String) : String :=
  let escaped := value.toList.flatMap fun c =>
    match c with
    | '\n' => ['\\', 'n']
    | '\t' => ['\\', 't']
    | '"' => ['\\', '"']
    | '\\' => ['\\', '\\']
    | c => [c]
  "\"" ++ String.ofList escaped ++ "\""

end Config

end Packaging.Git
