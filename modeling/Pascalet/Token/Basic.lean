import Pascalet.Operator
import Pascalet.Text.Quoted

namespace Pascalet

inductive Keyword where
  | programWord | beginWord | endWord | ifWord | thenWord | elseWord | whileWord | doWord
  | procedureWord | varWord | readWord | writeWord | realWord | integerWord
deriving DecidableEq, Repr

namespace Keyword

def all : List Keyword :=
  [programWord, beginWord, endWord, ifWord, thenWord, elseWord, whileWord, doWord,
    procedureWord, varWord, readWord, writeWord, realWord, integerWord]

def spelling : Keyword → String
  | programWord => "program"
  | beginWord => "begin"
  | endWord => "end"
  | ifWord => "if"
  | thenWord => "then"
  | elseWord => "else"
  | whileWord => "while"
  | doWord => "do"
  | procedureWord => "procedure"
  | varWord => "var"
  | readWord => "read"
  | writeWord => "write"
  | realWord => "real"
  | integerWord => "integer"

/-- Keywords are written in any case. A letter beyond ASCII is in none of them, in either case. -/
def ofName? (name : List Char) : Option Keyword :=
  all.find? fun keyword => keyword.spelling.toList == name.map Char.toLower

end Keyword

inductive TokenKind where
  | identifier | integerLiteral | realLiteral
  | keyword (word : Keyword)
  | operator (operator : Operator)
  | relation (relation : Relation)
  | assign | leftParen | rightParen | comma | dot | colon | semicolon | dollar
  | endOfInput
deriving DecidableEq, Repr

namespace TokenKind

def label : TokenKind → String
  | identifier => "IDENT"
  | integerLiteral => "INT_LITERAL"
  | realLiteral => "REAL_LITERAL"
  | keyword word => word.spelling.map Char.toUpper
  | operator .add => "PLUS"
  | operator .subtract => "MINUS"
  | operator .multiply => "STAR"
  | operator .divide => "SLASH"
  | relation .equal => "EQ"
  | relation .notEqual => "NE"
  | relation .atLeast => "GE"
  | relation .atMost => "LE"
  | relation .greater => "GT"
  | relation .less => "LT"
  | assign => "ASSIGN"
  | leftParen => "LPAREN"
  | rightParen => "RPAREN"
  | comma => "COMMA"
  | dot => "DOT"
  | colon => "COLON"
  | semicolon => "SEMICOLON"
  | dollar => "DOLLAR"
  | endOfInput => "EOF"

def isLiteral : TokenKind → Bool
  | integerLiteral | realLiteral => true
  | _ => false

def isRelation : TokenKind → Bool
  | relation _ => true
  | _ => false

end TokenKind

structure Token where
  kind : TokenKind
  lexeme : String
  line : Nat
deriving DecidableEq

def Token.describe (token : Token) : String :=
  "Token(" ++ token.kind.label ++ ", " ++ Text.quote token.lexeme ++ ", line=" ++
    toString token.line ++ ")"

end Pascalet
