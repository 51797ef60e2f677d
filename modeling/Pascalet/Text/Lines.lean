import Pascalet.Text.Character

namespace Pascalet.Text

def consFirst (c : Char) : List (List Char) → List (List Char)
  | [] => [[c]]
  | segment :: segments => (c :: segment) :: segments

/-- The stretches of a text that end at each character of a class or at the end of the text; the
ending characters are dropped. -/
def segments (ends : Char → Bool) : List Char → List (List Char)
  | [] => []
  | c :: rest => if ends c then [] :: segments ends rest else consFirst c (segments ends rest)

def words (text : List Char) : List (List Char) :=
  (segments isBlank text).filter (!·.isEmpty)

def trim (text : List Char) : List Char :=
  ((text.dropWhile isBlank).reverse.dropWhile isBlank).reverse

def splitWord (text : List Char) : List Char × List Char :=
  (text.takeWhile (!isBlank ·), (text.dropWhile (!isBlank ·)).dropWhile isBlank)

def foldCrLf : List Char → List Char
  | '\r' :: '\n' :: rest => '\n' :: foldCrLf rest
  | c :: rest => c :: foldCrLf rest
  | [] => []

def objectLines (text : List Char) : List (List Char) :=
  segments isLineBreak (foldCrLf text)

def inputLines (text : List Char) : List (List Char) :=
  segments (· == '\n') text

def unifyNewlines (text : List Char) : List Char :=
  (foldCrLf text).map fun c => if c = '\r' then '\n' else c

end Pascalet.Text
