/-! Paths of configuration and spec files. They are compared as texts, so they are kept in one
spelling: forward slashes, and no `./` at the front.
-/

namespace Packaging

/-- A path with forward slashes. -/
structure Path where
  text : String
deriving DecidableEq

namespace Path

/-- A text with its backslashes turned into slashes. -/
def slashed (text : List Char) : List Char :=
  text.map fun c => if c = '\\' then '/' else c

/-- A text without the `./` at its front, however often it is repeated. -/
def withoutDot : List Char → List Char
  | '.' :: '/' :: rest => withoutDot rest
  | text => text

def ofString (text : String) : Path :=
  ⟨String.ofList (withoutDot (slashed text.toList))⟩

/-- The path of `segment` below `base`. On the empty path it is the path that the segment spells.
-/
def join (base : Path) (segment : String) : Path :=
  let segment := String.ofList (slashed segment.toList)
  if base.text = "" then ofString segment
  else if base.text.toList.getLast? = some '/' then ⟨base.text ++ segment⟩
  else ⟨base.text ++ "/" ++ segment⟩

/-- The last component in reverse, slashes at the end of the path aside. -/
def reversedName (text : List Char) : List Char :=
  (text.reverse.dropWhile (· = '/')).takeWhile (· ≠ '/')

/-- The last component, if there is one. -/
def fileName? (path : Path) : Option String :=
  match reversedName path.text.toList with
  | [] => none
  | name => some (String.ofList name.reverse)

/-- The text after the last dot of a file name. A dot at its front opens no extension. -/
def extensionOf? (name : String) : Option String :=
  let reversed := name.toList.reverse
  match reversed.dropWhile (· ≠ '.') with
  | [] => none
  | [_] => none
  | _ => some (String.ofList (reversed.takeWhile (· ≠ '.')).reverse)

def extension? (path : Path) : Option String :=
  path.fileName?.bind extensionOf?

/-- Whether the extension is exactly `extension`. -/
def hasExtension (path : Path) (extension : String) : Bool :=
  path.extension? = some extension

end Path

end Packaging
