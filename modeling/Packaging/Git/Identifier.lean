import Packaging.Text.Digits
import Packaging.Text.Integer

/-! Identifiers of objects in hexadecimal digits, and the characters of files that hold them. A file
is read byte by byte, so that identifiers in it have their places whatever else it holds.
-/

namespace Packaging.Git

/-- The 40 hexadecimal digits that identify an object. -/
abbrev ObjectId := List Char

namespace ObjectId

/-- The number of digits of an identifier. -/
def length : Nat := 40

/-- Whether a character is a hexadecimal digit. -/
def isHex (c : Char) : Bool :=
  Text.Integer.isDigit 16 c

/-- The identifier at the front of a text, and what stands after it. -/
def take? (text : List Char) : Option (ObjectId × List Char) :=
  let digits := text.take length
  if digits.length = length ∧ digits.all isHex then
    some (digits.map Char.toLower, text.drop length)
  else none

/-- The identifier that a whole text is. -/
def whole? (text : List Char) : Option ObjectId :=
  match take? text with
  | some (id, []) => some id
  | _ => none

def ofDigest (digest : List UInt8) : ObjectId :=
  digest.flatMap fun byte => Digits.padded 16 2 byte.toNat

/-- The tree without entries has an identifier like any other, and every repository knows it. -/
def emptyTree : ObjectId := "4b825dc642cb6eb9a060e54bf8d69288fbee4904".toList

end ObjectId

namespace FileText

/-- The characters of a file, each byte for itself. -/
def characters (content : ByteArray) : List Char :=
  content.toList.map fun byte => Char.ofNat byte.toNat

/-- The text of characters that are bytes, if they are text. -/
def text? (characters : List Char) : Option String :=
  String.fromUTF8? ⟨(characters.map fun c => UInt8.ofNat c.toNat).toArray⟩

/-- The text of characters that are bytes, or the characters themselves if the bytes are no text. -/
def ofCharacters (characters : List Char) : String :=
  (text? characters).getD (String.ofList characters)

/-- The text up to a zero character. -/
def untilZero (text : List Char) : List Char :=
  text.takeWhile (· ≠ '\x00')

/-- A text without the blanks at its end. -/
def trimRight (text : List Char) : List Char :=
  (text.reverse.dropWhile Text.Integer.isBlank).reverse

end FileText

end Packaging.Git
