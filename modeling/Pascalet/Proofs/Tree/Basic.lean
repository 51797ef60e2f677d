import Pascalet.Symbol.Table
import Pascalet.Token.Basic

namespace Pascalet.Tree

structure Terminal (kind : TokenKind) where
  lexeme : String
  line : Nat

def Terminal.ofToken (token : Token) : Terminal token.kind :=
  ⟨token.lexeme, token.line⟩

def Terminal.token {kind : TokenKind} (terminal : Terminal kind) : Token :=
  ⟨kind, terminal.lexeme, terminal.line⟩

theorem exists_terminal {kind : TokenKind} {token : Token} (found : token.kind = kind) :
    ∃ terminal : Terminal kind, terminal.token = token := by
  subst found
  exact ⟨Terminal.ofToken token, rfl⟩

abbrev Name := Terminal .identifier

abbrev Semicolon := Terminal .semicolon

abbrev Comma := Terminal .comma

abbrev Word (keyword : Keyword) := Terminal (.keyword keyword)

inductive Literal where
  | integer (terminal : Terminal .integerLiteral)
  | real (terminal : Terminal .realLiteral)

inductive ProductSign where
  | times (terminal : Terminal (.operator .multiply))
  | divided (terminal : Terminal (.operator .divide))

inductive SumSign where
  | plus (terminal : Terminal (.operator .add))
  | minus (terminal : Terminal (.operator .subtract))

mutual

/-- `factor := IDENT | INT_LITERAL | REAL_LITERAL | '(' expression ')'` -/
inductive Factor where
  | name (name : Name)
  | literal (literal : Literal)
  | group (left : Terminal .leftParen) (inner : Expression) (right : Terminal .rightParen)

inductive Factors where
  | done
  | more (sign : ProductSign) (factor : Factor) (rest : Factors)

/-- `term := ['-'] factor { ('*' | '/') factor }` -/
inductive Term where
  | plain (first : Factor) (rest : Factors)
  | negated (sign : Terminal (.operator .subtract)) (first : Factor) (rest : Factors)

inductive Terms where
  | done
  | more (sign : SumSign) (term : Term) (rest : Terms)

/-- `expression := term { ('+' | '-') term }` -/
inductive Expression where
  | sum (first : Term) (rest : Terms)

end

/-- `condition := expression relop expression` -/
structure Condition where
  left : Expression
  relation : Relation
  sign : Terminal (.relation relation)
  right : Expression

/-- `ident_list := IDENT { ',' IDENT }` -/
structure Names where
  first : Name
  rest : List (Comma × Name)

structure Listed where
  left : Terminal .leftParen
  names : Names
  right : Terminal .rightParen

mutual

inductive Statement where
  /-- `READ '(' ident_list ')'` -/
  | read (word : Word .readWord) (targets : Listed)
  /-- `WRITE '(' expression { ',' expression } ')'` -/
  | write (word : Word .writeWord) (left : Terminal .leftParen) (first : Expression)
    (rest : List (Comma × Expression)) (right : Terminal .rightParen)
  /-- `IF condition THEN statements '$'` -/
  | choose (word : Word .ifWord) (condition : Condition) (thenWord : Word .thenWord)
    (body : Statements) (close : Terminal .dollar)
  /-- `IF condition THEN statements ELSE statements '$'` -/
  | chooseElse (word : Word .ifWord) (condition : Condition) (thenWord : Word .thenWord)
    (body : Statements) (elseWord : Word .elseWord) (other : Statements) (close : Terminal .dollar)
  /-- `WHILE condition DO statements '$'` -/
  | loop (word : Word .whileWord) (condition : Condition) (doWord : Word .doWord)
    (body : Statements) (close : Terminal .dollar)
  /-- `IDENT ':=' expression` -/
  | assign (target : Name) (sign : Terminal .assign) (value : Expression)
  /-- `IDENT [ '(' ident_list ')' ]` -/
  | call (procedure : Name) (arguments : Option Listed)

/-- `statements := [statement] { ';' [statement] }` -/
inductive Statements where
  | empty
  | last (statement : Statement)
  | skip (semicolon : Semicolon) (rest : Statements)
  | more (statement : Statement) (semicolon : Semicolon) (rest : Statements)

end

inductive TypeName where
  | real (word : Word .realWord)
  | integer (word : Word .integerWord)

structure Typed where
  names : Names
  colon : Terminal .colon
  type : TypeName

/-- `var_decl [';']`, where `var_decl := VAR ident_list ':' type` -/
structure Variables where
  word : Word .varWord
  typed : Typed
  semicolon : Option Semicolon

/-- `'(' param_list ')'`, where `param_list := ident_list ':' type { ';' ident_list ':' type }` -/
structure Parameters where
  left : Terminal .leftParen
  first : Typed
  rest : List (Semicolon × Typed)
  right : Terminal .rightParen

/-- `PROCEDURE IDENT [ '(' param_list ')' ] [';'] { var_decl [';'] } BEGIN statements END [';']` -/
structure Procedure where
  word : Word .procedureWord
  name : Name
  parameters : Option Parameters
  semicolon : Option Semicolon
  locals : List Variables
  beginWord : Word .beginWord
  body : Statements
  endWord : Word .endWord
  close : Option Semicolon

/-- `var_decl [';'] | procedure_group`, where `procedure_group := procedure_decl { procedure_decl }` -/
inductive Declaration where
  | vars (declared : Variables)
  | procedures (first : Procedure) (rest : List Procedure)

/-- `program := PROGRAM IDENT [';'] declarations BEGIN statements END '.'` -/
structure Program where
  word : Word .programWord
  name : Name
  semicolon : Option Semicolon
  declarations : List Declaration
  beginWord : Word .beginWord
  body : Statements
  endWord : Word .endWord
  dot : Terminal .dot

def Literal.token : Literal → Token
  | .integer terminal => terminal.token
  | .real terminal => terminal.token

def Literal.lexeme : Literal → String
  | .integer terminal => terminal.lexeme
  | .real terminal => terminal.lexeme

def ProductSign.token : ProductSign → Token
  | .times terminal => terminal.token
  | .divided terminal => terminal.token

def ProductSign.operator : ProductSign → Operator
  | .times _ => .multiply
  | .divided _ => .divide

def SumSign.token : SumSign → Token
  | .plus terminal => terminal.token
  | .minus terminal => terminal.token

def SumSign.operator : SumSign → Operator
  | .plus _ => .add
  | .minus _ => .subtract

mutual

def Factor.tokens : Factor → List Token
  | .name name => [name.token]
  | .literal literal => [literal.token]
  | .group left inner right => left.token :: inner.tokens ++ [right.token]

def Factors.tokens : Factors → List Token
  | .done => []
  | .more sign factor rest => sign.token :: factor.tokens ++ rest.tokens

def Term.tokens : Term → List Token
  | .plain first rest => first.tokens ++ rest.tokens
  | .negated sign first rest => sign.token :: first.tokens ++ rest.tokens

def Terms.tokens : Terms → List Token
  | .done => []
  | .more sign term rest => sign.token :: term.tokens ++ rest.tokens

def Expression.tokens : Expression → List Token
  | .sum first rest => first.tokens ++ rest.tokens

end

def Condition.tokens (condition : Condition) : List Token :=
  condition.left.tokens ++ condition.sign.token :: condition.right.tokens

def moreNames (rest : List (Comma × Name)) : List Token :=
  rest.flatMap fun (comma, name) => [comma.token, name.token]

def Names.tokens (names : Names) : List Token :=
  names.first.token :: moreNames names.rest

def Names.list (names : Names) : List Name :=
  names.first :: names.rest.map (·.2)

def Names.found (names : Names) : List Token :=
  names.list.map Terminal.token

def Listed.tokens (listed : Listed) : List Token :=
  listed.left.token :: listed.names.tokens ++ [listed.right.token]

def moreExpressions (rest : List (Comma × Expression)) : List Token :=
  rest.flatMap fun (comma, expression) => comma.token :: expression.tokens

mutual

def Statement.tokens : Statement → List Token
  | .read word targets => word.token :: targets.tokens
  | .write word left first rest right =>
    word.token :: left.token :: first.tokens ++ moreExpressions rest ++ [right.token]
  | .choose word condition thenWord body close =>
    word.token :: condition.tokens ++ thenWord.token :: body.tokens ++ [close.token]
  | .chooseElse word condition thenWord body elseWord other close =>
    word.token :: condition.tokens ++ thenWord.token :: body.tokens ++
      elseWord.token :: other.tokens ++ [close.token]
  | .loop word condition doWord body close =>
    word.token :: condition.tokens ++ doWord.token :: body.tokens ++ [close.token]
  | .assign target sign value => target.token :: sign.token :: value.tokens
  | .call procedure arguments => procedure.token :: arguments.elim [] Listed.tokens

def Statements.tokens : Statements → List Token
  | .empty => []
  | .last statement => statement.tokens
  | .skip semicolon rest => semicolon.token :: rest.tokens
  | .more statement semicolon rest => statement.tokens ++ semicolon.token :: rest.tokens

end

def TypeName.token : TypeName → Token
  | .real word => word.token
  | .integer word => word.token

def TypeName.type : TypeName → DataType
  | .real _ => .real
  | .integer _ => .integer

def optionalText (semicolon : Option Semicolon) : List Token :=
  semicolon.toList.map Terminal.token

def Typed.tokens (typed : Typed) : List Token :=
  typed.names.tokens ++ [typed.colon.token, typed.type.token]

def Variables.tokens (vars : Variables) : List Token :=
  vars.word.token :: vars.typed.tokens ++ optionalText vars.semicolon

def moreTyped (rest : List (Semicolon × Typed)) : List Token :=
  rest.flatMap fun (semicolon, typed) => semicolon.token :: typed.tokens

def Parameters.tokens (parameters : Parameters) : List Token :=
  parameters.left.token :: parameters.first.tokens ++ moreTyped parameters.rest ++
    [parameters.right.token]

def Procedure.tail (procedure : Procedure) : List Token :=
  procedure.name.token :: (procedure.parameters.elim [] Parameters.tokens) ++
    optionalText procedure.semicolon ++ procedure.locals.flatMap Variables.tokens ++
    procedure.beginWord.token :: procedure.body.tokens ++
    procedure.endWord.token :: optionalText procedure.close

def Procedure.tokens (procedure : Procedure) : List Token :=
  procedure.word.token :: procedure.tail

def Declaration.tokens : Declaration → List Token
  | .vars declared => declared.tokens
  | .procedures first rest => first.tokens ++ rest.flatMap Procedure.tokens

def Program.tail (program : Program) : List Token :=
  program.name.token :: optionalText program.semicolon ++
    program.declarations.flatMap Declaration.tokens ++
    program.beginWord.token :: program.body.tokens ++ [program.endWord.token, program.dot.token]

def Program.tokens (program : Program) : List Token :=
  program.word.token :: program.tail

def Parameters.groups (parameters : Parameters) : List Typed :=
  parameters.first :: parameters.rest.map (·.2)

def Procedure.groups (procedure : Procedure) : List Typed :=
  procedure.parameters.elim [] Parameters.groups

inductive Item where
  | vars (declared : Variables)
  | procedure (declared : Procedure)

def Item.tokens : Item → List Token
  | .vars declared => declared.tokens
  | .procedure declared => declared.tokens

def Declaration.items : Declaration → List Item
  | .vars declared => [.vars declared]
  | .procedures first rest => .procedure first :: rest.map .procedure

def Program.items (program : Program) : List Item :=
  program.declarations.flatMap Declaration.items

theorem Declaration.items_tokens (declaration : Declaration) :
    declaration.items.flatMap Item.tokens = declaration.tokens := by
  cases declaration with
  | vars declared => simp [items, tokens, Item.tokens]
  | procedures first rest =>
    simp [items, tokens, Item.tokens, List.flatMap_map]

theorem Program.items_tokens (program : Program) :
    program.items.flatMap Item.tokens = program.declarations.flatMap Declaration.tokens := by
  rw [Program.items, List.flatMap_assoc]
  congr 1
  funext declaration
  exact declaration.items_tokens

/-- The sentences of the grammar: the texts of programs, with the end of input behind them. -/
def Program.Spells (program : Program) (tokens : List Token) : Prop :=
  ∃ last : Terminal .endOfInput, tokens = program.tokens ++ [last.token]

def IsSentence (tokens : List Token) : Prop :=
  ∃ program : Program, program.Spells tokens

end Pascalet.Tree
