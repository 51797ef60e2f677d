import Pascalet.Proofs.Descent.Goal
import Pascalet.Proofs.Tree.Basic

namespace Pascalet

open Pascalet.Tree

/-- The text behind a list of names, from its closing token on. -/
def NameList.Closing : NameList → List Token → Prop
  | variableNames, text =>
    ∃ (colon : Terminal .colon) (type : TypeName), text = [colon.token, type.token]
  | parameterNames, text =>
    ∃ (colon : Terminal .colon) (type : TypeName) (rest : List (Semicolon × Typed))
      (right : Terminal .rightParen),
      text = colon.token :: type.token :: moreTyped rest ++ [right.token]
  | readTargets, text | arguments _ _, text =>
    ∃ right : Terminal .rightParen, text = [right.token]

namespace Goal

def AfterBranch (text : List Token) : Prop :=
  (∃ close : Terminal .dollar, text = [close.token]) ∨
    ∃ (elseWord : Word .elseWord) (other : Statements) (close : Terminal .dollar),
      text = elseWord.token :: other.tokens ++ [close.token]

/-- The part of a sentence that a goal stands for. -/
def Demands : Goal → List Token → Prop
  | expect kind _, text => ∃ terminal : Terminal kind, text = [terminal.token]
  | programName, text =>
    ∃ (program : Tree.Program) (last : Terminal .endOfInput), text = program.tail ++ [last.token]
  | optionalSemicolon, text => ∃ semicolon : Option Semicolon, text = optionalText semicolon
  | declarations, text =>
    ∃ declared : List Declaration, text = declared.flatMap Declaration.tokens
  | endOfProgram, text => ∃ last : Terminal .endOfInput, text = [last.token]
  | names _ use, text =>
    ∃ (found : Names) (rest : List Token), use.Closing rest ∧ text = found.tokens ++ rest
  | namesTail _ use, text =>
    ∃ (found : List (Comma × Name)) (rest : List Token),
      use.Closing rest ∧ text = moreNames found ++ rest
  | variableType _, text => ∃ type : TypeName, text = [type.token]
  | parameterType _, text =>
    ∃ (type : TypeName) (rest : List (Semicolon × Typed)) (right : Terminal .rightParen),
      text = type.token :: moreTyped rest ++ [right.token]
  | parametersTail, text =>
    ∃ (rest : List (Semicolon × Typed)) (right : Terminal .rightParen),
      text = moreTyped rest ++ [right.token]
  | procedures _, text =>
    ∃ declared : List Tree.Procedure, text = declared.flatMap Procedure.tokens
  | procedureName, text => ∃ procedure : Tree.Procedure, text = procedure.tail
  | heading _, text =>
    ∃ parameters : Option Parameters, text = parameters.elim [] Parameters.tokens
  | locals, text => ∃ declared : List Variables, text = declared.flatMap Variables.tokens
  | endOfProcedure, text => ∃ endWord : Word .endWord, text = [endWord.token]
  | statements, text => ∃ found : Statements, text = found.tokens
  | statementsTail, text =>
    text = [] ∨ ∃ (semicolon : Semicolon) (rest : Statements), text = semicolon.token :: rest.tokens
  | afterName _, text =>
    (∃ (sign : Terminal .assign) (value : Expression), text = sign.token :: value.tokens) ∨
      ∃ listed : Option Listed, text = listed.elim [] Listed.tokens
  | assignment _, text | expression, text => ∃ found : Expression, text = found.tokens
  | writeTail, text =>
    ∃ (rest : List (Comma × Expression)) (right : Terminal .rightParen),
      text = moreExpressions rest ++ [right.token]
  | relation, text =>
    ∃ (asked : Relation) (sign : Terminal (.relation asked)) (right : Expression),
      text = sign.token :: right.tokens
  | thenBranch, text =>
    ∃ (thenWord : Word .thenWord) (body : Statements) (rest : List Token),
      AfterBranch rest ∧ text = thenWord.token :: body.tokens ++ rest
  | elseBranch _, text => AfterBranch text
  | endOfIf _, text | endOfLoop _ _, text => ∃ close : Terminal .dollar, text = [close.token]
  | loopBody _, text =>
    ∃ (doWord : Word .doWord) (body : Statements) (close : Terminal .dollar),
      text = doWord.token :: body.tokens ++ [close.token]
  | expressionTail, text => ∃ found : Terms, text = found.tokens
  | term, text => ∃ found : Term, text = found.tokens
  | termTail, text => ∃ found : Factors, text = found.tokens
  | factor, text => ∃ found : Factor, text = found.tokens
  | declareVariables _ _, text | declareParameters _ _, text | readInto _, text
  | perform _ _ _, text | load _, text | emit _ _, text => text = []

def DemandAll : List Goal → List Token → Prop
  | [], text => text = []
  | goal :: later, text => ∃ first rest, text = first ++ rest ∧ goal.Demands first ∧ DemandAll later rest

theorem demandAll_append {goals later : List Goal} {text : List Token}
    (demanded : DemandAll (goals ++ later) text) :
    ∃ front back, text = front ++ back ∧ DemandAll goals front ∧ DemandAll later back := by
  induction goals generalizing text with
  | nil => exact ⟨[], text, rfl, rfl, demanded⟩
  | cons goal goals ih =>
    obtain ⟨first, tail, rfl, met, others⟩ := demanded
    obtain ⟨front, back, rfl, own, rest⟩ := ih others
    exact ⟨first ++ front, back, by simp, ⟨first, front, rfl, met, own⟩, rest⟩

theorem demandAll_one {goal : Goal} {text : List Token} :
    DemandAll [goal] text ↔ goal.Demands text := by
  constructor
  · rintro ⟨first, rest, rfl, met, rfl⟩
    simpa using met
  · intro met
    exact ⟨text, [], by simp, met, rfl⟩

variable {token : Token} {text : List Token} {draft taken : Draft} {goals : List Goal}

theorem demands_factor (met : meetFactor token draft = .ok (.take goals taken))
    (demanded : DemandAll goals text) : factor.Demands (token :: text) := by
  unfold meetFactor at met
  split at met
  next named =>
    cases met
    obtain ⟨name, rfl⟩ := exists_terminal named
    obtain rfl := demandAll_one.mp demanded
    exact ⟨.name name, rfl⟩
  next whole =>
    cases met
    obtain ⟨literal, rfl⟩ := exists_terminal whole
    cases demanded
    exact ⟨.literal (.integer literal), rfl⟩
  next real =>
    cases met
    obtain ⟨literal, rfl⟩ := exists_terminal real
    cases demanded
    exact ⟨.literal (.real literal), rfl⟩
  next opened =>
    cases met
    obtain ⟨left, rfl⟩ := exists_terminal opened
    obtain ⟨_, _, rfl, ⟨inner, rfl⟩, rest⟩ := demanded
    obtain ⟨right, rfl⟩ := demandAll_one.mp rest
    exact ⟨.group left inner right, rfl⟩
  next => cases met

theorem exists_take_of_andThen {action : Except CompileError Verdict} {extra : List Goal}
    (met : action.map (·.andThen extra) = .ok (.take goals taken)) :
    ∃ first, action = .ok (.take first taken) ∧ goals = first ++ extra := by
  cases action with
  | error error => cases met
  | ok verdict =>
    cases verdict with
    | pass passed => cases met
    | take first draft =>
      cases met
      exact ⟨first, rfl, rfl⟩

theorem demands_term (met : meetTerm token draft = .ok (.take goals taken))
    (demanded : DemandAll goals text) : term.Demands (token :: text) := by
  unfold meetTerm at met
  split at met
  next minus =>
    cases met
    obtain ⟨sign, rfl⟩ := exists_terminal minus
    obtain ⟨_, _, rfl, ⟨first, rfl⟩, _, _, rfl, rfl, rest⟩ := demanded
    obtain ⟨factors, rfl⟩ := demandAll_one.mp rest
    exact ⟨.negated sign first factors, rfl⟩
  next =>
    obtain ⟨own, begun, rfl⟩ := exists_take_of_andThen met
    obtain ⟨front, back, rfl, demandedFactor, rest⟩ := demandAll_append demanded
    obtain ⟨first, shown⟩ := demands_factor begun demandedFactor
    obtain ⟨factors, rfl⟩ := demandAll_one.mp rest
    exact ⟨.plain first factors, by rw [Term.tokens, ← shown]; rfl⟩

theorem demands_expression (met : meetExpression token draft = .ok (.take goals taken))
    (demanded : DemandAll goals text) : expression.Demands (token :: text) := by
  obtain ⟨own, begun, rfl⟩ := exists_take_of_andThen met
  obtain ⟨front, back, rfl, demandedTerm, rest⟩ := demandAll_append demanded
  obtain ⟨first, shown⟩ := demands_term begun demandedTerm
  obtain ⟨terms, rfl⟩ := demandAll_one.mp rest
  exact ⟨.sum first terms, by rw [Expression.tokens, ← shown]; rfl⟩

theorem demands_names {use : NameList} {earlier : List Token} (named : token.kind = .identifier)
    (demanded : (namesTail earlier use).Demands text) (others : List Token) :
    (names others use).Demands (token :: text) := by
  obtain ⟨name, rfl⟩ := exists_terminal named
  obtain ⟨found, rest, closing, rfl⟩ := demanded
  exact ⟨⟨name, found⟩, rest, closing, rfl⟩

theorem demands_namesTail_comma {use : NameList} {earlier : List Token}
    (separates : token.kind = .comma) (demanded : (names earlier use).Demands text) :
    (namesTail earlier use).Demands (token :: text) := by
  obtain ⟨comma, rfl⟩ := exists_terminal separates
  obtain ⟨found, rest, closing, rfl⟩ := demanded
  refine ⟨(comma, found.first) :: found.rest, rest, closing, ?_⟩
  simp [moreNames, Names.tokens]

theorem closing_of_goal {use : NameList} {found : List Token} (closes : token.kind = use.closer)
    (demanded : (use.goal found).Demands text) : use.Closing (token :: text) := by
  cases use with
  | variableNames =>
    obtain ⟨colon, rfl⟩ := exists_terminal closes
    obtain ⟨type, rfl⟩ := demanded
    exact ⟨colon, type, rfl⟩
  | parameterNames =>
    obtain ⟨colon, rfl⟩ := exists_terminal closes
    obtain ⟨type, rest, right, rfl⟩ := demanded
    exact ⟨colon, type, rest, right, rfl⟩
  | readTargets =>
    obtain ⟨right, rfl⟩ := exists_terminal closes
    cases demanded
    exact ⟨right, rfl⟩
  | arguments name procedure =>
    obtain ⟨right, rfl⟩ := exists_terminal closes
    cases demanded
    exact ⟨right, rfl⟩

theorem exists_variables {earlier : List Token}
    (demanded : (names earlier .variableNames).Demands text) :
    ∃ typed : Typed, text = typed.tokens := by
  obtain ⟨found, _, ⟨colon, type, rfl⟩, rfl⟩ := demanded
  exact ⟨⟨found, colon, type⟩, rfl⟩

theorem exists_parameters {earlier : List Token}
    (demanded : (names earlier .parameterNames).Demands text) :
    ∃ (typed : Typed) (rest : List (Semicolon × Typed)) (right : Terminal .rightParen),
      text = typed.tokens ++ (moreTyped rest ++ [right.token]) := by
  obtain ⟨found, _, ⟨colon, type, rest, right, rfl⟩, rfl⟩ := demanded
  exact ⟨⟨found, colon, type⟩, rest, right, by simp [Typed.tokens]⟩

theorem exists_statement_of_afterName {name : Name}
    (demanded : (afterName name.token).Demands text) :
    ∃ statement : Statement, name.token :: text = statement.tokens := by
  rcases demanded with ⟨sign, value, rfl⟩ | ⟨listed, rfl⟩
  · exact ⟨.assign name sign value, rfl⟩
  · exact ⟨.call name listed, rfl⟩

theorem exists_choice {word : Word .ifWord} {condition : Condition} (demanded : thenBranch.Demands text) :
    ∃ statement : Statement, word.token :: (condition.tokens ++ text) = statement.tokens := by
  obtain ⟨thenWord, body, _, branch, rfl⟩ := demanded
  rcases branch with ⟨close, rfl⟩ | ⟨elseWord, other, close, rfl⟩
  · exact ⟨.choose word condition thenWord body close, by simp [Statement.tokens]⟩
  · exact ⟨.chooseElse word condition thenWord body elseWord other close, by
      simp [Statement.tokens]⟩

theorem exists_condition {left : Expression} (demanded : relation.Demands text) :
    ∃ condition : Condition, left.tokens ++ text = condition.tokens := by
  obtain ⟨asked, sign, right, rfl⟩ := demanded
  exact ⟨⟨left, asked, sign, right⟩, rfl⟩

theorem exists_statement {start : Nat} (begun : statementGoals? token start = some goals)
    (demanded : DemandAll goals text) : ∃ statement : Statement, token :: text = statement.tokens := by
  unfold statementGoals? at begun
  split at begun
  next readWord =>
    cases begun
    obtain ⟨word, rfl⟩ := exists_terminal readWord
    obtain ⟨_, _, rfl, ⟨left, rfl⟩, rest⟩ := demanded
    obtain ⟨found, _, ⟨right, rfl⟩, rfl⟩ := demandAll_one.mp rest
    exact ⟨.read word ⟨left, found, right⟩, by simp [Statement.tokens, Listed.tokens]⟩
  next writeWord =>
    cases begun
    obtain ⟨word, rfl⟩ := exists_terminal writeWord
    obtain ⟨_, _, rfl, ⟨left, rfl⟩, _, _, rfl, ⟨first, rfl⟩, rest⟩ := demanded
    obtain ⟨others, right, rfl⟩ := demandAll_one.mp rest
    exact ⟨.write word left first others right, by simp [Statement.tokens]⟩
  next ifWord =>
    cases begun
    obtain ⟨word, rfl⟩ := exists_terminal ifWord
    obtain ⟨_, _, rfl, ⟨left, rfl⟩, _, _, rfl, related, rest⟩ := demanded
    obtain ⟨condition, shown⟩ := @exists_condition _ left related
    rw [← List.append_assoc, shown]
    exact exists_choice (demandAll_one.mp rest)
  next whileWord =>
    cases begun
    obtain ⟨word, rfl⟩ := exists_terminal whileWord
    obtain ⟨_, _, rfl, ⟨left, rfl⟩, _, _, rfl, related, rest⟩ := demanded
    obtain ⟨condition, shown⟩ := @exists_condition _ left related
    obtain ⟨doWord, body, close, rfl⟩ := demandAll_one.mp rest
    rw [← List.append_assoc, shown]
    exact ⟨.loop word condition doWord body close, by simp [Statement.tokens]⟩
  next named =>
    cases begun
    obtain ⟨name, rfl⟩ := exists_terminal named
    exact exists_statement_of_afterName (demandAll_one.mp demanded)
  next => cases begun

/-- A semicolon and what follows it end a list of statements as well as they begin one. -/
theorem exists_statements_of_tail {statement : Statement} (demanded : statementsTail.Demands text) :
    ∃ found : Statements, statement.tokens ++ text = found.tokens := by
  rcases demanded with rfl | ⟨semicolon, rest, rfl⟩
  · exact ⟨.last statement, by simp [Statements.tokens]⟩
  · exact ⟨.more statement semicolon rest, rfl⟩

theorem demands_declarations (met : declarations.meet token draft = .ok (.take goals taken))
    (demanded : DemandAll goals text) : declarations.Demands (token :: text) := by
  simp only [meet] at met
  split at met
  next varWord =>
    cases met
    obtain ⟨word, rfl⟩ := exists_terminal varWord
    obtain ⟨_, _, rfl, named, _, _, rfl, ⟨semicolon, rfl⟩, rest⟩ := demanded
    obtain ⟨typed, rfl⟩ := exists_variables named
    obtain ⟨declared, rfl⟩ := demandAll_one.mp rest
    exact ⟨.vars ⟨word, typed, semicolon⟩ :: declared, by
      simp [Declaration.tokens, Variables.tokens]⟩
  next procedureWord =>
    cases met
    obtain ⟨word, rfl⟩ := exists_terminal procedureWord
    obtain ⟨_, _, rfl, ⟨first, rfl⟩, _, _, rfl, ⟨others, rfl⟩, rest⟩ := demanded
    obtain ⟨declared, rfl⟩ := demandAll_one.mp rest
    exact ⟨.procedures { first with word } others :: declared, by
      simp [Declaration.tokens, Procedure.tokens, Procedure.tail]⟩
  next => cases met

end Goal

end Pascalet
