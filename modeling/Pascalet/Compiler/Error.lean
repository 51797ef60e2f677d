import Pascalet.Code.Buffer
import Pascalet.Report
import Pascalet.Token.Cursor

namespace Pascalet

inductive Expectation where
  | programWord | programName | bodyStart | bodyEnd | programDot | endOfProgram
  | identifier | identifierAfterComma | variableColon | parameterColon | typeName
  | procedureName | procedureStart | procedureEnd | parametersEnd
  | readStart | readEnd | writeStart | writeEnd | argumentsEnd
  | thenWord | ifEnd | doWord | loopEnd
  | relation | operand | parenthesisEnd
deriving DecidableEq, Repr

def Expectation.message : Expectation → String
  | programWord => "Expected 'program'"
  | programName => "Expected program name"
  | bodyStart => "Expected 'begin'"
  | bodyEnd => "Expected 'end'"
  | programDot => "Expected '.' after program body"
  | endOfProgram => "Unexpected text after end of program"
  | identifier => "Expected identifier"
  | identifierAfterComma => "Expected identifier after ','"
  | variableColon => "Expected ':' after variable names"
  | parameterColon => "Expected ':' after parameter names"
  | typeName => "Expected 'real' or 'integer'"
  | procedureName => "Expected procedure name"
  | procedureStart => "Expected 'begin' in procedure body"
  | procedureEnd => "Expected 'end' after procedure body"
  | parametersEnd => "Expected ')' after parameters"
  | readStart => "Expected '(' after 'read'"
  | readEnd => "Expected ')' after read list"
  | writeStart => "Expected '(' after 'write'"
  | writeEnd => "Expected ')' after write list"
  | argumentsEnd => "Expected ')' after arguments"
  | thenWord => "Expected 'then' after condition"
  | ifEnd => "Expected '$' to close 'if'"
  | doWord => "Expected 'do' after condition"
  | loopEnd => "Expected '$' to close 'while'"
  | relation => "Expected relational operator"
  | operand => "Expected identifier, number or '('"
  | parenthesisEnd => "Expected ')' after expression"

inductive CompileError where
  | invalidCharacter (failure : InvalidCharacter)
  | unexpected (expectation : Expectation) (found : Token)
  | redeclared (name : Token) (scope : String)
  | undeclared (name : Token)
  | procedureAsVariable (name : Token)
  | notProcedure (name : Token)
  | argumentCount (name : Token) (expected actual : Nat)
  | jump (fault : JumpFault)
deriving DecidableEq

namespace CompileError

def foundText (found : Token) : String :=
  let text := if found.kind = .endOfInput then "end of input" else found.lexeme
  found.kind.label ++ " (" ++ Text.quote text ++ ")"

def message : CompileError → String
  | invalidCharacter failure => (Report.invalidCharacter failure.character.toString none none).message
  | unexpected expectation found => expectation.message ++ ", found " ++ foundText found
  | redeclared name scope =>
    "Identifier '" ++ name.lexeme ++ "' already declared in scope '" ++ scope ++ "'"
  | undeclared name => "Undeclared identifier '" ++ name.lexeme ++ "'"
  | procedureAsVariable name => "Procedure '" ++ name.lexeme ++ "' cannot be used as a variable"
  | notProcedure name => "'" ++ name.lexeme ++ "' is not a procedure"
  | argumentCount name expected actual =>
    "Procedure '" ++ name.lexeme ++ "' expects " ++ toString expected ++ " argument(s), got " ++
      toString actual
  | jump fault => fault.message

def line? : CompileError → Option Nat
  | invalidCharacter failure => some failure.line
  | unexpected _ found => some found.line
  | redeclared name _ | undeclared name | procedureAsVariable name | notProcedure name
  | argumentCount name _ _ => some name.line
  | jump _ => none

def report (error : CompileError) : Report :=
  { message := error.message, line := error.line?.map Int.ofNat }

end CompileError

end Pascalet
