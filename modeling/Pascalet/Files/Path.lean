import Pascalet.Text.Lines

namespace Pascalet.Path

open Text

def pieces (path : String) : List String :=
  ((segments (· == '/') path.toList).filter (!·.isEmpty)).map String.ofList

def parts (path : String) : List String :=
  (pieces path).filter (· ≠ ".")

/-- The slashes in front. Two of them are kept, more count as one. -/
def root (path : String) : String :=
  match path.toList with
  | '/' :: '/' :: '/' :: _ => "/"
  | '/' :: '/' :: _ => "//"
  | '/' :: _ => "/"
  | _ => ""

def normal (path : String) : String :=
  let text := root path ++ "/".intercalate (parts path)
  if text.isEmpty then "." else text

/-- The steps that lead to the place; a slash at the end asks for a directory. -/
def steps (path : String) : List String :=
  if path.endsWith "/" then pieces path ++ ["."] else pieces path

def isAbsolute (path : String) : Bool :=
  path.startsWith "/"

def stem (path : String) : String :=
  let name := ((parts path).getLast?.getD "").toList
  let extension := (name.reverse.takeWhile (· ≠ '.')).length
  if 0 < extension ∧ extension + 1 < name.length then
    String.ofList (name.take (name.length - (extension + 1)))
  else String.ofList name

end Pascalet.Path
