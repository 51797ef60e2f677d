import Pascalet.Proofs.Recognition.Demand
import Pascalet.Proofs.Tree.EndOfInput

namespace Pascalet.Goal

open Pascalet.Tree

variable {goal : Goal} {token : Token} {text : List Token} {draft passed taken : Draft}
  {goals later : List Goal}

theorem take_of_ite {kind : TokenKind} {own : List Goal} {result : Draft}
    {otherwise : Except CompileError Verdict}
    (met : (if token.kind = kind then .ok (.take own result) else otherwise) =
      .ok (.take goals taken)) :
    ((∃ terminal : Terminal kind, terminal.token = token) ∧ goals = own) ∨
      otherwise = .ok (.take goals taken) := by
  split at met
  next found =>
    cases met
    exact .inl ⟨exists_terminal found, rfl⟩
  next => exact .inr met

theorem take_of_ite_map {kind : TokenKind} {action : Except CompileError Draft}
    {error : CompileError}
    (met : (if token.kind = kind then action.map (Verdict.take []) else .error error) =
      .ok (Verdict.take goals taken)) :
    (∃ terminal : Terminal kind, terminal.token = token) ∧ goals = [] := by
  split at met
  next found =>
    cases action <;> cases met
    exact ⟨exists_terminal found, rfl⟩
  next => cases met

theorem not_take_of_pass {action : Except CompileError Draft}
    (met : action.map Verdict.pass = .ok (.take goals taken)) : False := by
  cases action <;> cases met

theorem exists_typeName {type : DataType} (shown : dataType? token.kind = some type) :
    ∃ name : TypeName, name.token = token := by
  unfold dataType? at shown
  split at shown
  next integerWord =>
    obtain ⟨word, rfl⟩ := exists_terminal integerWord
    exact ⟨.integer word, rfl⟩
  next realWord =>
    obtain ⟨word, rfl⟩ := exists_terminal realWord
    exact ⟨.real word, rfl⟩
  next => cases shown

theorem demands_programName (met : programName.meet token draft = .ok (.take goals taken))
    (demanded : DemandAll goals text) : programName.Demands (token :: text) := by
  rcases take_of_ite met with ⟨⟨name, rfl⟩, rfl⟩ | refused
  · obtain ⟨_, _, rfl, ⟨semicolon, rfl⟩, _, _, rfl, ⟨declared, rfl⟩, _, _, rfl, ⟨beginWord, rfl⟩,
      _, _, rfl, ⟨body, rfl⟩, _, _, rfl, ⟨endWord, rfl⟩, _, _, rfl, ⟨dot, rfl⟩, rest⟩ := demanded
    obtain ⟨last, rfl⟩ := demandAll_one.mp rest
    exact ⟨⟨⟨"", 0⟩, name, semicolon, declared, beginWord, body, endWord, dot⟩, last, by
      simp [Program.tail]⟩
  · cases refused

theorem demands_procedureName (met : procedureName.meet token draft = .ok (.take goals taken))
    (demanded : DemandAll goals text) : procedureName.Demands (token :: text) := by
  rcases take_of_ite met with ⟨⟨name, rfl⟩, rfl⟩ | refused
  · obtain ⟨_, _, rfl, ⟨parameters, rfl⟩, _, _, rfl, ⟨semicolon, rfl⟩, _, _, rfl, ⟨declared, rfl⟩,
      _, _, rfl, ⟨beginWord, rfl⟩, _, _, rfl, ⟨body, rfl⟩, _, _, rfl, ⟨endWord, rfl⟩, rest⟩ := demanded
    obtain ⟨close, rfl⟩ := demandAll_one.mp rest
    exact ⟨⟨⟨"", 0⟩, name, parameters, semicolon, declared, beginWord, body, endWord, close⟩, by
      simp [Procedure.tail]⟩
  · cases refused

theorem demands_namesTail {found : List Token} {use : NameList}
    (met : (namesTail found use).meet token draft = .ok (.take goals taken))
    (demanded : DemandAll goals text) : (namesTail found use).Demands (token :: text) := by
  simp only [meet] at met
  split at met
  next separates =>
    cases met
    exact demands_namesTail_comma separates (demandAll_one.mp demanded)
  next =>
    split at met
    next closes =>
      cases met
      exact ⟨[], _, closing_of_goal closes (demandAll_one.mp demanded), rfl⟩
    next => cases met

theorem demands_heading {name : Token}
    (met : (heading name).meet token draft = .ok (.take goals taken))
    (demanded : DemandAll goals text) : (heading name).Demands (token :: text) := by
  simp only [meet] at met
  cases opening : draft.openProcedure name with
  | error error => simp only [opening, bind, Except.bind] at met; cases met
  | ok opened =>
    simp only [opening, bind, Except.bind] at met
    rcases take_of_ite met with ⟨⟨left, rfl⟩, rfl⟩ | refused
    · obtain ⟨typed, rest, right, rfl⟩ := exists_parameters (demandAll_one.mp demanded)
      exact ⟨some ⟨left, typed, rest, right⟩, by simp [Parameters.tokens]⟩
    · cases refused

theorem demands_parametersTail (met : parametersTail.meet token draft = .ok (.take goals taken))
    (demanded : DemandAll goals text) : parametersTail.Demands (token :: text) := by
  rcases take_of_ite met with ⟨⟨semicolon, rfl⟩, rfl⟩ | met
  · obtain ⟨typed, rest, right, rfl⟩ := exists_parameters (demandAll_one.mp demanded)
    exact ⟨(semicolon, typed) :: rest, right, by simp [moreTyped]⟩
  · rcases take_of_ite met with ⟨⟨right, rfl⟩, rfl⟩ | refused
    · cases demanded
      exact ⟨[], right, rfl⟩
    · cases refused

theorem demands_locals (met : locals.meet token draft = .ok (.take goals taken))
    (demanded : DemandAll goals text) : locals.Demands (token :: text) := by
  rcases take_of_ite met with ⟨⟨word, rfl⟩, rfl⟩ | refused
  · obtain ⟨_, _, rfl, named, _, _, rfl, ⟨semicolon, rfl⟩, rest⟩ := demanded
    obtain ⟨typed, rfl⟩ := exists_variables named
    obtain ⟨declared, rfl⟩ := demandAll_one.mp rest
    exact ⟨⟨word, typed, semicolon⟩ :: declared, by simp [Variables.tokens]⟩
  · cases refused

theorem demands_statements (met : statements.meet token draft = .ok (.take goals taken))
    (demanded : DemandAll goals text) : statements.Demands (token :: text) := by
  simp only [meet] at met
  split at met
  next own begun =>
    cases met
    obtain ⟨front, back, rfl, first, rest⟩ := demandAll_append demanded
    obtain ⟨statement, shown⟩ := exists_statement begun first
    rw [← List.cons_append, shown]
    exact exists_statements_of_tail (demandAll_one.mp rest)
  next =>
    rcases take_of_ite met with ⟨⟨semicolon, rfl⟩, rfl⟩ | refused
    · obtain ⟨rest, rfl⟩ := demandAll_one.mp demanded
      exact ⟨.skip semicolon rest, rfl⟩
    · cases refused

theorem demands_afterName {name : Token}
    (met : (afterName name).meet token draft = .ok (.take goals taken))
    (demanded : DemandAll goals text) : (afterName name).Demands (token :: text) := by
  rcases take_of_ite met with ⟨⟨sign, rfl⟩, rfl⟩ | met
  · obtain ⟨value, rfl⟩ := demandAll_one.mp demanded
    exact .inl ⟨sign, value, rfl⟩
  · cases resolved : draft.resolveProcedure name with
    | error error => simp only [resolved, bind, Except.bind] at met; cases met
    | ok procedure =>
      simp only [resolved, bind, Except.bind] at met
      rcases take_of_ite met with ⟨⟨left, rfl⟩, rfl⟩ | refused
      · obtain ⟨found, _, ⟨right, rfl⟩, rfl⟩ := demandAll_one.mp demanded
        exact .inr ⟨some ⟨left, found, right⟩, by simp [Listed.tokens]⟩
      · exact (not_take_of_pass refused).elim

theorem demands_assignment {target : Token}
    (met : (assignment target).meet token draft = .ok (.take goals taken))
    (demanded : DemandAll goals text) : (assignment target).Demands (token :: text) := by
  simp only [meet] at met
  cases resolved : draft.resolveVariable target with
  | error error => simp only [resolved, bind, Except.bind] at met; cases met
  | ok symbol =>
    simp only [resolved, bind, Except.bind] at met
    obtain ⟨own, begun, rfl⟩ := exists_take_of_andThen met
    obtain ⟨front, back, rfl, first, rest⟩ := demandAll_append demanded
    obtain rfl := demandAll_one.mp rest
    rw [List.append_nil]
    exact demands_expression begun first

theorem demands_writeTail (met : writeTail.meet token draft = .ok (.take goals taken))
    (demanded : DemandAll goals text) : writeTail.Demands (token :: text) := by
  rcases take_of_ite met with ⟨⟨comma, rfl⟩, rfl⟩ | met
  · obtain ⟨_, _, rfl, ⟨first, rfl⟩, rest⟩ := demanded
    obtain ⟨others, right, rfl⟩ := demandAll_one.mp rest
    exact ⟨(comma, first) :: others, right, by simp [moreExpressions]⟩
  · rcases take_of_ite met with ⟨⟨right, rfl⟩, rfl⟩ | refused
    · cases demanded
      exact ⟨[], right, rfl⟩
    · cases refused

theorem demands_relation (met : relation.meet token draft = .ok (.take goals taken))
    (demanded : DemandAll goals text) : relation.Demands (token :: text) := by
  simp only [meet] at met
  split at met
  next asked found =>
    cases met
    obtain ⟨sign, rfl⟩ := exists_terminal found
    obtain ⟨_, _, rfl, ⟨right, rfl⟩, rest⟩ := demanded
    obtain rfl := demandAll_one.mp rest
    exact ⟨asked, sign, right, by simp⟩
  next => cases met

theorem demands_elseBranch {skip : Nat}
    (met : (elseBranch skip).meet token draft = .ok (.take goals taken))
    (demanded : DemandAll goals text) : (elseBranch skip).Demands (token :: text) := by
  simp only [meet] at met
  cases patched : (draft.emitJump .jump).patchHere skip with
  | error error => simp only [patched, bind, Except.bind] at met; cases met
  | ok left =>
    simp only [patched, bind, Except.bind] at met
    rcases take_of_ite met with ⟨⟨elseWord, rfl⟩, rfl⟩ | met
    · obtain ⟨_, _, rfl, ⟨other, rfl⟩, rest⟩ := demanded
      obtain ⟨close, rfl⟩ := demandAll_one.mp rest
      exact .inr ⟨elseWord, other, close, rfl⟩
    · obtain ⟨⟨close, rfl⟩, rfl⟩ := take_of_ite_map met
      cases demanded
      exact .inl ⟨close, rfl⟩

theorem demands_expressionTail (met : expressionTail.meet token draft = .ok (.take goals taken))
    (demanded : DemandAll goals text) : expressionTail.Demands (token :: text) := by
  simp only [meet] at met
  split at met
  next found =>
    cases met
    obtain ⟨sign, rfl⟩ := exists_terminal found
    obtain ⟨_, _, rfl, ⟨operand, rfl⟩, _, _, rfl, rfl, rest⟩ := demanded
    obtain ⟨terms, rfl⟩ := demandAll_one.mp rest
    exact ⟨.more (.plus sign) operand terms, rfl⟩
  next found =>
    cases met
    obtain ⟨sign, rfl⟩ := exists_terminal found
    obtain ⟨_, _, rfl, ⟨operand, rfl⟩, _, _, rfl, rfl, rest⟩ := demanded
    obtain ⟨terms, rfl⟩ := demandAll_one.mp rest
    exact ⟨.more (.minus sign) operand terms, rfl⟩
  next => cases met

theorem demands_termTail (met : termTail.meet token draft = .ok (.take goals taken))
    (demanded : DemandAll goals text) : termTail.Demands (token :: text) := by
  simp only [meet] at met
  split at met
  next found =>
    cases met
    obtain ⟨sign, rfl⟩ := exists_terminal found
    obtain ⟨_, _, rfl, ⟨operand, rfl⟩, _, _, rfl, rfl, rest⟩ := demanded
    obtain ⟨factors, rfl⟩ := demandAll_one.mp rest
    exact ⟨.more (.times sign) operand factors, rfl⟩
  next found =>
    cases met
    obtain ⟨sign, rfl⟩ := exists_terminal found
    obtain ⟨_, _, rfl, ⟨operand, rfl⟩, _, _, rfl, rfl, rest⟩ := demanded
    obtain ⟨factors, rfl⟩ := demandAll_one.mp rest
    exact ⟨.more (.divided sign) operand factors, rfl⟩
  next => cases met

theorem demands_of_take (met : goal.meet token draft = .ok (.take goals taken))
    (demanded : DemandAll goals text) : goal.Demands (token :: text) := by
  cases goal with
  | programName => exact demands_programName met demanded
  | declarations => exact demands_declarations met demanded
  | namesTail found use => exact demands_namesTail met demanded
  | procedureName => exact demands_procedureName met demanded
  | heading name => exact demands_heading met demanded
  | parametersTail => exact demands_parametersTail met demanded
  | locals => exact demands_locals met demanded
  | statements => exact demands_statements met demanded
  | afterName name => exact demands_afterName met demanded
  | assignment target => exact demands_assignment met demanded
  | writeTail => exact demands_writeTail met demanded
  | relation => exact demands_relation met demanded
  | elseBranch skip => exact demands_elseBranch met demanded
  | expression => exact demands_expression met demanded
  | expressionTail => exact demands_expressionTail met demanded
  | term => exact demands_term met demanded
  | termTail => exact demands_termTail met demanded
  | factor => exact demands_factor met demanded
  | expect kind expectation =>
    rcases take_of_ite met with ⟨⟨terminal, rfl⟩, rfl⟩ | refused
    · cases demanded
      exact ⟨terminal, rfl⟩
    · cases refused
  | optionalSemicolon =>
    rcases take_of_ite met with ⟨⟨semicolon, rfl⟩, rfl⟩ | refused
    · cases demanded
      exact ⟨some semicolon, rfl⟩
    · cases refused
  | endOfProgram =>
    rcases take_of_ite met with ⟨⟨last, rfl⟩, rfl⟩ | refused
    · cases demanded
      exact ⟨last, rfl⟩
    · cases refused
  | names earlier use =>
    simp only [meet] at met
    split at met
    next named =>
      cases met
      exact demands_names named (demandAll_one.mp demanded) earlier
    next => split at met <;> cases met
  | variableType found =>
    simp only [meet] at met
    split at met
    next type shown =>
      cases met
      obtain ⟨name, rfl⟩ := exists_typeName shown
      obtain rfl := demandAll_one.mp demanded
      exact ⟨name, rfl⟩
    next => cases met
  | parameterType found =>
    simp only [meet] at met
    split at met
    next type shown =>
      cases met
      obtain ⟨name, rfl⟩ := exists_typeName shown
      obtain ⟨_, _, rfl, rfl, rest⟩ := demanded
      obtain ⟨others, right, rfl⟩ := demandAll_one.mp rest
      exact ⟨name, others, right, rfl⟩
    next => cases met
  | procedures skips =>
    rcases take_of_ite met with ⟨⟨word, rfl⟩, rfl⟩ | refused
    · obtain ⟨_, _, rfl, ⟨first, rfl⟩, rest⟩ := demanded
      obtain ⟨others, rfl⟩ := demandAll_one.mp rest
      exact ⟨{ first with word } :: others, by simp [Procedure.tokens, Procedure.tail]⟩
    · exact (not_take_of_pass refused).elim
  | endOfProcedure =>
    rcases take_of_ite met with ⟨⟨endWord, rfl⟩, rfl⟩ | refused
    · cases demanded
      exact ⟨endWord, rfl⟩
    · cases refused
  | statementsTail =>
    rcases take_of_ite met with ⟨⟨semicolon, rfl⟩, rfl⟩ | refused
    · obtain ⟨rest, rfl⟩ := demandAll_one.mp demanded
      exact .inr ⟨semicolon, rest, rfl⟩
    · cases refused
  | thenBranch =>
    rcases take_of_ite met with ⟨⟨thenWord, rfl⟩, rfl⟩ | refused
    · obtain ⟨_, _, rfl, ⟨body, rfl⟩, rest⟩ := demanded
      exact ⟨thenWord, body, _, demandAll_one.mp rest, rfl⟩
    · cases refused
  | endOfIf leave | endOfLoop start leave =>
    obtain ⟨⟨close, rfl⟩, rfl⟩ := take_of_ite_map met
    cases demanded
    exact ⟨close, rfl⟩
  | loopBody start =>
    rcases take_of_ite met with ⟨⟨doWord, rfl⟩, rfl⟩ | refused
    · obtain ⟨_, _, rfl, ⟨body, rfl⟩, rest⟩ := demanded
      obtain ⟨close, rfl⟩ := demandAll_one.mp rest
      exact ⟨doWord, body, close, rfl⟩
    · cases refused
  | declareVariables found type | declareParameters found type | readInto found
  | perform name procedure arguments => exact (not_take_of_pass met).elim
  | load name =>
    simp only [meet] at met
    cases resolved : draft.resolveVariable name <;> simp only [resolved, bind, Except.bind] at met <;>
      cases met
  | emit opcode argument => cases met

theorem not_pass_of_ite {kind : TokenKind} {own : List Goal} {result : Draft} {error : CompileError}
    (met : (if token.kind = kind then Except.ok (Verdict.take own result) else .error error) =
      .ok (.pass passed)) : False := by
  split at met <;> cases met

theorem not_pass_of_ite_map {kind : TokenKind} {action : Except CompileError Draft}
    {error : CompileError}
    (met : (if token.kind = kind then action.map (Verdict.take []) else .error error) =
      .ok (Verdict.pass passed)) : False := by
  split at met
  · cases action <;> cases met
  · cases met

theorem demands_of_pass (met : goal.meet token draft = .ok (.pass passed)) : goal.Demands [] := by
  cases goal with
  | optionalSemicolon => exact ⟨none, rfl⟩
  | declarations => exact ⟨[], rfl⟩
  | procedures skips => exact ⟨[], rfl⟩
  | heading name => exact ⟨none, rfl⟩
  | locals => exact ⟨[], rfl⟩
  | statements => exact ⟨.empty, rfl⟩
  | statementsTail => exact .inl rfl
  | afterName name => exact .inr ⟨none, rfl⟩
  | expressionTail => exact ⟨.done, rfl⟩
  | termTail => exact ⟨.done, rfl⟩
  | declareVariables found type | declareParameters found type | readInto found
  | perform name procedure arguments | load name | emit opcode argument => rfl
  | expect kind expectation | programName | endOfProgram | procedureName | endOfProcedure
  | thenBranch | loopBody start => exact (not_pass_of_ite met).elim
  | endOfIf leave | endOfLoop start leave => exact (not_pass_of_ite_map met).elim
  | expression => exact (not_pass_expression met).elim
  | term => exact (not_pass_term met).elim
  | factor => exact (not_pass_factor met).elim
  | names earlier use =>
    simp only [meet] at met
    split at met
    · cases met
    · split at met <;> cases met
  | namesTail found use =>
    simp only [meet] at met
    split at met
    · cases met
    · exact (not_pass_of_ite met).elim
  | variableType found =>
    simp only [meet] at met
    split at met <;> cases met
  | parameterType found =>
    simp only [meet] at met
    split at met <;> cases met
  | parametersTail =>
    simp only [meet] at met
    split at met
    · cases met
    · exact (not_pass_of_ite met).elim
  | assignment target =>
    simp only [meet] at met
    cases resolved : draft.resolveVariable target with
    | error error => simp only [resolved, bind, Except.bind] at met; cases met
    | ok symbol =>
      simp only [resolved, bind, Except.bind] at met
      exact (not_pass_expression (pass_of_andThen met)).elim
  | writeTail =>
    simp only [meet] at met
    split at met
    · cases met
    · exact (not_pass_of_ite met).elim
  | relation =>
    simp only [meet] at met
    split at met <;> cases met
  | elseBranch skip =>
    simp only [meet] at met
    cases patched : (draft.emitJump .jump).patchHere skip with
    | error error => simp only [patched, bind, Except.bind] at met; cases met
    | ok left =>
      simp only [patched, bind, Except.bind] at met
      split at met
      · cases met
      · exact (not_pass_of_ite_map met).elim

theorem demandAll_advance {remaining : List Goal} {advanced : Draft}
    (met : advance goals token draft = .ok (remaining, advanced))
    (demanded : DemandAll remaining text) : DemandAll goals (token :: text) := by
  induction goals generalizing draft with
  | nil => cases met
  | cons goal later ih =>
    simp only [advance] at met
    split at met
    next => cases met
    next passed verdict =>
      exact ⟨[], token :: text, rfl, demands_of_pass verdict, ih met⟩
    next own taken verdict =>
      cases met
      obtain ⟨front, back, rfl, first, rest⟩ := demandAll_append demanded
      exact ⟨token :: front, back, rfl, demands_of_take verdict first, rest⟩

/-- Tokens are demanded in front of what their remaining goals demand. -/
theorem demandAll_advanceAll {tokens : List Token} {remaining : List Goal} {advanced : Draft}
    (met : advanceAll goals tokens draft = .ok (remaining, advanced))
    (demanded : DemandAll remaining text) : DemandAll goals (tokens ++ text) := by
  induction tokens generalizing goals draft with
  | nil =>
    cases met
    exact demanded
  | cons token tokens ih =>
    simp only [advanceAll] at met
    split at met
    next => cases met
    next middle reached step => exact demandAll_advance step (ih met)

theorem isSentence_of_demandAll {tokens : List Token} (demanded : DemandAll program tokens) :
    IsSentence tokens := by
  obtain ⟨_, _, rfl, ⟨word, rfl⟩, rest⟩ := demanded
  obtain ⟨found, last, rfl⟩ := demandAll_one.mp rest
  exact ⟨{ found with word }, last, by simp [Program.tokens, Program.tail]⟩

def anyTerminal (kind : TokenKind) : Terminal kind :=
  ⟨"", 0⟩

def anyExpression : Expression :=
  .sum (.plain (.name (anyTerminal _)) .done) .done

theorem exists_closing (use : NameList) : ∃ text, use.Closing text := by
  cases use with
  | variableNames => exact ⟨_, anyTerminal _, .real (anyTerminal _), rfl⟩
  | parameterNames =>
    exact ⟨_, anyTerminal _, .real (anyTerminal _), [], anyTerminal _, rfl⟩
  | readTargets | arguments name procedure => exact ⟨_, anyTerminal _, rfl⟩

theorem exists_demands (goal : Goal) : ∃ text, goal.Demands text := by
  cases goal with
  | expect kind expectation => exact ⟨_, anyTerminal kind, rfl⟩
  | programName =>
    exact ⟨_, ⟨anyTerminal _, anyTerminal _, none, [], anyTerminal _, .empty, anyTerminal _,
      anyTerminal _⟩, anyTerminal _, rfl⟩
  | procedureName =>
    exact ⟨_, ⟨anyTerminal _, anyTerminal _, none, none, [], anyTerminal _, .empty, anyTerminal _,
      none⟩, rfl⟩
  | names earlier use =>
    obtain ⟨rest, closing⟩ := exists_closing use
    exact ⟨_, ⟨anyTerminal _, []⟩, rest, closing, rfl⟩
  | namesTail found use =>
    obtain ⟨rest, closing⟩ := exists_closing use
    exact ⟨_, [], rest, closing, rfl⟩
  | variableType found => exact ⟨_, .real (anyTerminal _), rfl⟩
  | parameterType found => exact ⟨_, .real (anyTerminal _), [], anyTerminal _, rfl⟩
  | parametersTail => exact ⟨_, [], anyTerminal _, rfl⟩
  | optionalSemicolon | heading name => exact ⟨_, none, rfl⟩
  | declarations | procedures skips | locals => exact ⟨_, [], rfl⟩
  | endOfProgram | endOfProcedure | endOfIf leave | endOfLoop start leave =>
    exact ⟨_, anyTerminal _, rfl⟩
  | statements => exact ⟨_, .empty, rfl⟩
  | statementsTail => exact ⟨_, .inl rfl⟩
  | afterName name => exact ⟨_, .inr ⟨none, rfl⟩⟩
  | assignment target | expression => exact ⟨_, anyExpression, rfl⟩
  | writeTail => exact ⟨_, [], anyTerminal _, rfl⟩
  | relation => exact ⟨_, .equal, anyTerminal _, anyExpression, rfl⟩
  | thenBranch => exact ⟨_, anyTerminal _, .empty, _, .inl ⟨anyTerminal _, rfl⟩, rfl⟩
  | elseBranch skip => exact ⟨_, .inl ⟨anyTerminal _, rfl⟩⟩
  | loopBody start => exact ⟨_, anyTerminal _, .empty, anyTerminal _, rfl⟩
  | expressionTail | termTail => exact ⟨_, .done, rfl⟩
  | term => exact ⟨_, .plain (.name (anyTerminal _)) .done, rfl⟩
  | factor => exact ⟨_, .name (anyTerminal _), rfl⟩
  | declareVariables found type | declareParameters found type | readInto found
  | perform name procedure arguments | load name | emit opcode argument => exact ⟨[], rfl⟩

theorem exists_demandAll (goals : List Goal) : ∃ text, DemandAll goals text := by
  induction goals with
  | nil => exact ⟨[], rfl⟩
  | cons goal later ih =>
    obtain ⟨first, met⟩ := exists_demands goal
    obtain ⟨rest, others⟩ := ih
    exact ⟨first ++ rest, first, rest, rfl, met, others⟩

theorem isSentence_of_advanceAll {tokens : List Token} {last : Token} {remaining : List Goal}
    {advanced : Draft} (met : advanceAll program (tokens ++ [last]) draft = .ok (remaining, advanced))
    (ends : last.kind = .endOfInput) : IsSentence (tokens ++ [last]) := by
  obtain ⟨rest, demanded⟩ := exists_demandAll remaining
  obtain ⟨found, spelled⟩ := isSentence_of_demandAll (demandAll_advanceAll met demanded)
  rw [List.append_assoc] at spelled
  have nothing : rest = [] := spelled.eq_nil ends
  subst nothing
  exact ⟨found, spelled⟩

end Pascalet.Goal
