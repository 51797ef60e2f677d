import Pascalet.Compiler.Goal
import Pascalet.Proofs.Renaming.Draft

namespace Pascalet

variable (new : Renaming)

def NameList.rename : NameList → NameList
  | arguments name procedure => arguments (name.asName new) (procedure.rename new.name)
  | use => use

def Goal.rename : Goal → Goal
  | names earlier use => names (earlier.map (Token.asName new)) (use.rename new)
  | namesTail found use => namesTail (found.map (Token.asName new)) (use.rename new)
  | variableType found => variableType (found.map (Token.asName new))
  | parameterType found => parameterType (found.map (Token.asName new))
  | declareVariables found type => declareVariables (found.map (Token.asName new)) type
  | declareParameters found type => declareParameters (found.map (Token.asName new)) type
  | heading name => heading (name.asName new)
  | afterName name => afterName (name.asName new)
  | assignment target => assignment (target.asName new)
  | readInto found => readInto (found.map (Token.asName new))
  | perform name procedure arguments =>
    perform (name.asName new) (procedure.rename new.name) (arguments.map (Token.asName new))
  | load name => load (name.asName new)
  | goal => goal

def Verdict.rename : Verdict → Verdict
  | pass draft => pass (draft.rename new)
  | take goals draft => take (goals.map (Goal.rename new)) (draft.rename new)

variable {new}

theorem Verdict.andThen_rename (later : List Goal) (verdict : Verdict) :
    (verdict.rename new).andThen (later.map (Goal.rename new)) =
      (verdict.andThen later).rename new := by
  cases verdict <;> simp [rename, andThen]

namespace Goal

variable (token : Token) (draft : Draft)

theorem meetFactor_rename :
    meetFactor (token.rename new) (draft.rename new) =
      new.result (Verdict.rename new) (meetFactor token draft) := by
  unfold meetFactor
  rw [Token.kind_rename]
  split
  next isName =>
    rw [Token.rename_of_identifier new isName]
    rfl
  next isLiteral =>
    rw [Token.lexeme_rename new (by rw [isLiteral]; simp)]
    rfl
  next isLiteral =>
    rw [Token.lexeme_rename new (by rw [isLiteral]; simp)]
    rfl
  next => rfl
  next => rfl

theorem meetTerm_rename :
    meetTerm (token.rename new) (draft.rename new) =
      new.result (Verdict.rename new) (meetTerm token draft) := by
  unfold meetTerm
  rw [Token.kind_rename]
  split
  · rfl
  · exact Renaming.result_map (meetFactor_rename token draft) (Verdict.andThen_rename [.termTail])

theorem meetExpression_rename :
    meetExpression (token.rename new) (draft.rename new) =
      new.result (Verdict.rename new) (meetExpression token draft) :=
  Renaming.result_map (meetTerm_rename token draft) (Verdict.andThen_rename [.expressionTail])

theorem statementGoals?_rename (start : Nat) :
    statementGoals? (token.rename new) start =
      (statementGoals? token start).map (List.map (Goal.rename new)) := by
  unfold statementGoals?
  rw [Token.kind_rename]
  split
  next => rfl
  next => rfl
  next => rfl
  next => rfl
  next isName =>
    rw [Token.rename_of_identifier new isName]
    rfl
  next => rfl

theorem goal_rename (found : List Token) (use : NameList) :
    (use.rename new).goal (found.map (Token.asName new)) = (use.goal found).rename new := by
  cases use <;> rfl

/-- A renamed goal answers a renamed token as the goal answers the token. -/
theorem meet_rename (goal : Goal) :
    (goal.rename new).meet (token.rename new) (draft.rename new) =
      new.result (Verdict.rename new) (goal.meet token draft) := by
  cases goal with
  | expect kind expectation | optionalSemicolon | endOfProgram | locals | statementsTail | writeTail
  | thenBranch | loopBody start =>
    simp only [rename, meet, Token.kind_rename]
    repeat' split
    all_goals rfl
  | programName =>
    simp only [rename, meet, Token.kind_rename]
    split
    next isName =>
      rw [Token.rename_of_identifier new isName]
      rfl
    next => rfl
  | declarations | relation | expressionTail | termTail =>
    simp only [rename, meet, Token.kind_rename]
    split <;> rfl
  | names earlier use =>
    simp only [rename, meet, Token.kind_rename, List.isEmpty_map]
    split
    next isName =>
      rw [Token.rename_of_identifier new isName]
      simp [Renaming.result, Verdict.rename, rename]
    next => split <;> rfl
  | namesTail found use =>
    have closer : (use.rename new).closer = use.closer := by cases use <;> rfl
    have expectation : (use.rename new).closerExpectation = use.closerExpectation := by
      cases use <;> rfl
    simp only [rename, meet, Token.kind_rename, closer, expectation]
    split
    · rfl
    · split
      · rw [goal_rename]
        rfl
      · rfl
  | variableType found | parameterType found =>
    simp only [rename, meet, Token.kind_rename]
    split <;> rfl
  | declareVariables found type =>
    exact Renaming.result_map (Renaming.result_foldlM
      (fun draft name => draft.declareVariable_rename type name) found draft) fun _ => rfl
  | declareParameters found type =>
    exact Renaming.result_map (Renaming.result_foldlM
      (fun draft name => draft.declareParameter_rename type name) found draft) fun _ => rfl
  | procedures skips =>
    simp only [rename, meet, Token.kind_rename]
    split
    · rfl
    · have each (reached : Draft) (index : Nat) : (reached.rename new).patchHere (id index) =
          new.result (Draft.rename new) (reached.patchHere index) := reached.patchHere_rename index
      have patched := Renaming.result_foldlM each skips draft
      rw [List.map_id] at patched
      exact Renaming.result_map patched fun _ => rfl
  | procedureName =>
    simp only [rename, meet, Token.kind_rename]
    split
    next isName =>
      rw [Token.rename_of_identifier new isName]
      rfl
    next => rfl
  | heading name =>
    apply Renaming.result_bind (draft.openProcedure_rename name)
    intro opened
    rw [Token.kind_rename]
    split
    · rfl
    · rw [opened.declareProcedure_rename]
      rfl
  | parametersTail =>
    simp only [rename, meet, Token.kind_rename, draft.declareProcedure_rename]
    repeat' split
    all_goals rfl
  | endOfProcedure =>
    simp only [rename, meet, Token.kind_rename, draft.closeProcedure_rename]
    split <;> rfl
  | statements =>
    have index : (draft.rename new).code.nextIndex = draft.code.nextIndex := rfl
    simp only [rename, meet, index, statementGoals?_rename, Token.kind_rename]
    cases statementGoals? token draft.code.nextIndex with
    | some goals => simp [Renaming.result, Verdict.rename, rename]
    | none =>
      simp only [Option.map_none]
      split <;> rfl
  | afterName name =>
    simp only [rename, meet, Token.kind_rename]
    split
    · rfl
    · apply Renaming.result_bind (draft.resolveProcedure_rename name)
      intro procedure
      split
      · rfl
      · exact Renaming.result_map (draft.emitCall_rename name procedure []) fun _ => rfl
  | assignment target =>
    apply Renaming.result_bind (draft.resolveVariable_rename target)
    intro symbol
    exact Renaming.result_map (meetExpression_rename token draft)
      (Verdict.andThen_rename [.emit .store (.integer symbol.address)])
  | readInto found => exact Renaming.result_map (draft.emitReads_rename found) fun _ => rfl
  | perform name procedure arguments =>
    exact Renaming.result_map (draft.emitCall_rename name procedure arguments) fun _ => rfl
  | elseBranch skip =>
    apply Renaming.result_bind ((draft.emitJump .jump).patchHere_rename skip)
    intro left
    rw [Token.kind_rename]
    split
    · rfl
    · split
      · exact Renaming.result_map (left.patchHere_rename draft.code.nextIndex) fun _ => rfl
      · rfl
  | endOfIf leave =>
    simp only [rename, meet, Token.kind_rename]
    split
    · exact Renaming.result_map (draft.patchHere_rename leave) fun _ => rfl
    · rfl
  | endOfLoop start leave =>
    simp only [rename, meet, Token.kind_rename]
    split
    · exact Renaming.result_map ((draft.emitAt .jump start).patchHere_rename leave) fun _ => rfl
    · rfl
  | expression => exact meetExpression_rename token draft
  | term => exact meetTerm_rename token draft
  | factor => exact meetFactor_rename token draft
  | load name => exact Renaming.result_bind (draft.resolveVariable_rename name) fun _ => rfl
  | emit opcode argument => rfl

theorem advance_rename (goals : List Goal) :
    advance (goals.map (Goal.rename new)) (token.rename new) (draft.rename new) =
      new.result (fun (remaining, advanced) =>
        (remaining.map (Goal.rename new), advanced.rename new)) (advance goals token draft) := by
  induction goals generalizing draft with
  | nil => rfl
  | cons goal later ih =>
    rw [List.map_cons, advance, advance, meet_rename]
    cases goal.meet token draft with
    | error error => rfl
    | ok verdict =>
      cases verdict with
      | pass passed => exact ih passed
      | take goals taken => simp [Renaming.result, Verdict.rename]

theorem advanceAll_rename (goals : List Goal) (tokens : List Token) :
    advanceAll (goals.map (Goal.rename new)) (tokens.map (Token.rename new)) (draft.rename new) =
      new.result (fun (remaining, advanced) =>
        (remaining.map (Goal.rename new), advanced.rename new)) (advanceAll goals tokens draft) := by
  induction tokens generalizing goals draft with
  | nil => rfl
  | cons token rest ih =>
    rw [List.map_cons, advanceAll, advanceAll, advance_rename]
    cases advance goals token draft with
    | error error => rfl
    | ok reached => exact ih reached.2 reached.1

end Goal

end Pascalet
