import Pascalet.Text.Lines

namespace Pascalet

structure Input where
  words : List (List Char) := []
  lines : List (List Char) := []
deriving DecidableEq

namespace Input

def ofText (text : String) : Input :=
  { lines := Text.inputLines text.toList }

def takeFrom : (words lines : List (List Char)) → Option (List Char) × Input
  | word :: words, lines => (some word, ⟨words, lines⟩)
  | [], line :: lines => takeFrom (Text.words line) lines
  | [], [] => (none, ⟨[], []⟩)

def take (input : Input) : Option (List Char) × Input :=
  takeFrom input.words input.lines

def dropLine (input : Input) : Input :=
  { input with words := [] }

end Input

/-- Where input comes from: the lines that can be had, and whether what is behind them is text. -/
structure Stream where
  input : Input := {}
  decodes : Bool := true

namespace Stream

def ofText (text : String) : Stream :=
  { input := .ofText text }

/-- Bytes that end a character of which the first bytes are given, one of them for every such start. -/
def completions : List (List UInt8) :=
  [[], [0x80], [0x80, 0x80], [0x80, 0x80, 0x80], [0xA0, 0x80], [0xA0, 0x80, 0x80]]

def decodeStart? (bytes : ByteArray) : Option (List Char) :=
  completions.findSome? fun completion =>
    (String.fromUTF8? (bytes ++ ⟨completion.toArray⟩)).map fun text =>
      if completion.isEmpty then text.toList else text.toList.dropLast

/-- What was decoded when a piece came that does not continue it as a text, or when the pieces came to
an end. -/
def decodedBefore (bytes : ByteArray) : (pieces : List ByteArray) → List Char
  | [] => (decodeStart? bytes).getD []
  | piece :: rest =>
    if (decodeStart? (bytes ++ piece)).isSome then decodedBefore (bytes ++ piece) rest
    else (decodeStart? bytes).getD []

/-- Drops what follows the last newline. A carriage return at the very end is no newline yet. -/
def wholeLines (text : List Char) : List Char :=
  let settled := if text.getLast? = some '\r' then text.dropLast else text
  ((Text.unifyNewlines settled).reverse.dropWhile (· ≠ '\n')).reverse

def ofPieces (pieces : List ByteArray) : Stream :=
  match String.fromUTF8? (pieces.foldl (· ++ ·) .empty) with
  | some text => ofText (String.ofList (Text.unifyNewlines text.toList))
  | none =>
    { input := { lines := Text.inputLines (wholeLines (decodedBefore .empty pieces)) }
      decodes := false }

/-- If the bytes are a text, it does not matter how they are cut into pieces. -/
theorem ofPieces_of_fromUTF8? {pieces : List ByteArray} {text : String}
    (decoded : String.fromUTF8? (pieces.foldl (· ++ ·) .empty) = some text) :
    ofPieces pieces = ofText (String.ofList (Text.unifyNewlines text.toList)) := by
  rw [ofPieces, decoded]

-- The second line is not whole when the byte comes that belongs to no text.
example : (ofPieces [⟨#[0x31, 0x0A, 0x32]⟩, ⟨#[0xFF]⟩]).input.lines = [['1']] := by
  decide +kernel

end Stream

end Pascalet
