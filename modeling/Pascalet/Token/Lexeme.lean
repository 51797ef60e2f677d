import Pascalet.Text.Character
import Pascalet.Token.Basic

namespace Pascalet.Lexeme

open Text

inductive Place where
  | layout
  | braceComment
  | starComment
deriving DecidableEq

def isLayout (c : Char) : Bool :=
  c == ' ' || c == '\t' || c == '\r' || c == '\n'

def taking (text : List Char) (split : List Char × List Char) : List Char × List Char :=
  (text ++ split.1, split.2)

/-- The gap at the front of a text. A comment that is not closed runs to the end. -/
def gap : Place → List Char → List Char × List Char
  | .layout, '\x7b' :: rest => taking ['\x7b'] (gap .braceComment rest)
  | .layout, '/' :: '*' :: rest => taking ['/', '*'] (gap .starComment rest)
  | .layout, c :: rest => if isLayout c then taking [c] (gap .layout rest) else ([], c :: rest)
  | .braceComment, '\x7d' :: rest => taking ['\x7d'] (gap .layout rest)
  | .braceComment, c :: rest => taking [c] (gap .braceComment rest)
  | .starComment, '*' :: '/' :: rest => taking ['*', '/'] (gap .layout rest)
  | .starComment, c :: rest => taking [c] (gap .starComment rest)
  | _, [] => ([], [])

def upTo (terminator : List Char) : List Char → List Char × List Char
  | [] => ([], [])
  | c :: rest =>
    if terminator.isPrefixOf (c :: rest) then ([], c :: rest)
    else taking [c] (upTo terminator rest)

structure Split where
  kind : TokenKind
  lexeme : List Char
  rest : List Char

def isNamePart (c : Char) : Bool :=
  isLetter c || isAsciiDigit c || c == '_'

def word (text : List Char) : Split :=
  let name := text.takeWhile isNamePart
  { kind := match Keyword.ofName? name with
      | some keyword => .keyword keyword
      | none => .identifier
    lexeme := name
    rest := text.dropWhile isNamePart }

/-- A point belongs to a number only when a digit follows it. -/
def number (text : List Char) : Split :=
  let whole := text.takeWhile isAsciiDigit
  match text.dropWhile isAsciiDigit with
  | '.' :: c :: rest =>
    if isAsciiDigit c then
      { kind := .realLiteral
        lexeme := whole ++ '.' :: (c :: rest).takeWhile isAsciiDigit
        rest := (c :: rest).dropWhile isAsciiDigit }
    else ⟨.integerLiteral, whole, '.' :: c :: rest⟩
  | rest => ⟨.integerLiteral, whole, rest⟩

def symbol? : List Char → Option Split
  | ':' :: '=' :: rest => some ⟨.assign, [':', '='], rest⟩
  | '<' :: '=' :: rest => some ⟨.relation .atMost, ['<', '='], rest⟩
  | '<' :: '>' :: rest => some ⟨.relation .notEqual, ['<', '>'], rest⟩
  | '>' :: '=' :: rest => some ⟨.relation .atLeast, ['>', '='], rest⟩
  | ':' :: rest => some ⟨.colon, [':'], rest⟩
  | '<' :: rest => some ⟨.relation .less, ['<'], rest⟩
  | '>' :: rest => some ⟨.relation .greater, ['>'], rest⟩
  | '=' :: rest => some ⟨.relation .equal, ['='], rest⟩
  | '+' :: rest => some ⟨.operator .add, ['+'], rest⟩
  | '-' :: rest => some ⟨.operator .subtract, ['-'], rest⟩
  | '*' :: rest => some ⟨.operator .multiply, ['*'], rest⟩
  | '/' :: rest => some ⟨.operator .divide, ['/'], rest⟩
  | '.' :: rest => some ⟨.dot, ['.'], rest⟩
  | ',' :: rest => some ⟨.comma, [','], rest⟩
  | ';' :: rest => some ⟨.semicolon, [';'], rest⟩
  | '(' :: rest => some ⟨.leftParen, ['('], rest⟩
  | ')' :: rest => some ⟨.rightParen, [')'], rest⟩
  | '$' :: rest => some ⟨.dollar, ['$'], rest⟩
  | _ => none

def first? : List Char → Option Split
  | [] => none
  | c :: rest =>
    if isLetter c then some (word (c :: rest))
    else if isAsciiDigit c then some (number (c :: rest))
    else symbol? (c :: rest)

theorem gap_append (place : Place) (text : List Char) :
    (gap place text).1 ++ (gap place text).2 = text := by
  fun_induction gap place text <;> simp_all [taking]

theorem word_append (text : List Char) : (word text).lexeme ++ (word text).rest = text :=
  List.takeWhile_append_dropWhile

theorem number_append (text : List Char) : (number text).lexeme ++ (number text).rest = text := by
  have cut := List.takeWhile_append_dropWhile (p := isAsciiDigit) (l := text)
  unfold number
  dsimp only
  split
  next c rest point =>
    split
    · rw [List.append_assoc, List.cons_append, List.takeWhile_append_dropWhile, ← point, cut]
    · rw [← point, cut]
  · exact cut

theorem symbol?_append {text : List Char} {split : Split} (found : symbol? text = some split) :
    split.lexeme ++ split.rest = text ∧ split.lexeme ≠ [] := by
  unfold symbol? at found
  split at found <;> cases found <;> simp

theorem first?_append {text : List Char} {split : Split} (found : first? text = some split) :
    split.lexeme ++ split.rest = text ∧ split.lexeme ≠ [] := by
  cases text with
  | nil => cases found
  | cons c rest =>
    simp only [first?] at found
    split at found
    next letter =>
      cases found
      exact ⟨word_append _, by simp [word, isNamePart, letter]⟩
    · split at found
      next digit =>
        cases found
        refine ⟨number_append _, ?_⟩
        unfold number
        dsimp only
        split
        · split <;> simp [digit]
        · simp [digit]
      · exact symbol?_append found

end Pascalet.Lexeme
