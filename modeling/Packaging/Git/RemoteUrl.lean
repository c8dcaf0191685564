import Packaging.Text.Pieces

/-! Names of repositories in the URLs of their remotes. The last two parts of a URL are the
namespace and the name, whatever separates them.
-/

namespace Packaging.Git.RemoteUrl

/-- Whether a character separates the parts of a URL. -/
def separates (c : Char) : Bool :=
  c = '/' || c = ':'

/-- A URL without the slashes at its end, and then without `.git` there. -/
def trimmed (url : List Char) : List Char :=
  let reversed := url.reverse.dropWhile (· = '/')
  match reversed with
  | 't' :: 'i' :: 'g' :: '.' :: rest => rest.reverse
  | _ => reversed.reverse

/-- The namespace and the name in a URL. Neither may be empty. -/
def split? (url : String) : Option (String × String) :=
  match (Text.pieces separates (trimmed url.toList)).reverse with
  | name :: scope :: _ =>
    if name.isEmpty || scope.isEmpty then none
    else some (String.ofList scope, String.ofList name)
  | _ => none

end Packaging.Git.RemoteUrl
