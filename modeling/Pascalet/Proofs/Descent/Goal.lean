import Pascalet.Compiler.Goal

namespace Pascalet.Goal

variable {goal : Goal} {goals later : List Goal} {token : Token} {tokens : List Token}
  {draft passed taken : Draft}

theorem advanceAll_take (met : goal.meet token draft = .ok (.take goals taken)) :
    advanceAll (goal :: later) (token :: tokens) draft = advanceAll (goals ++ later) tokens taken := by
  simp only [advanceAll, advance, met]

theorem advanceAll_pass (met : goal.meet token draft = .ok (.pass passed)) :
    advanceAll (goal :: later) (token :: tokens) draft = advanceAll later (token :: tokens) passed := by
  simp only [advanceAll, advance, met]

theorem advanceAll_error {error : CompileError} (met : goal.meet token draft = .error error) :
    advanceAll (goal :: later) (token :: tokens) draft = .error error := by
  simp only [advanceAll, advance, met]

theorem advanceAll_perform {action : Except CompileError Draft}
    (met : goal.meet token draft = action.map .pass) :
    advanceAll (goal :: later) (token :: tokens) draft =
      action >>= advanceAll later (token :: tokens) := by
  cases action with
  | error error => rw [advanceAll_error met]; rfl
  | ok passed => rw [advanceAll_pass met]; rfl

theorem advanceAll_takeResult {action : Except CompileError Draft}
    (met : goal.meet token draft = action.map (.take [])) :
    advanceAll (goal :: later) (token :: tokens) draft = action >>= advanceAll later tokens := by
  cases action with
  | error error => rw [advanceAll_error met]; rfl
  | ok taken => rw [advanceAll_take met]; rfl

theorem pass_of_andThen {action : Except CompileError Verdict}
    (met : action.map (·.andThen goals) = .ok (.pass passed)) : action = .ok (.pass passed) := by
  cases action with
  | error error => cases met
  | ok verdict => cases verdict <;> cases met; rfl

theorem not_pass_factor (met : meetFactor token draft = .ok (.pass passed)) : False := by
  unfold meetFactor at met
  split at met <;> cases met

theorem not_pass_term (met : meetTerm token draft = .ok (.pass passed)) : False := by
  unfold meetTerm at met
  split at met
  · cases met
  · exact not_pass_factor (pass_of_andThen met)

theorem not_pass_expression (met : meetExpression token draft = .ok (.pass passed)) : False :=
  not_pass_term (pass_of_andThen met)

theorem advanceAll_expression (nonempty : tokens ≠ []) :
    advanceAll (.expression :: later) tokens draft =
      advanceAll (.term :: .expressionTail :: later) tokens draft := by
  obtain ⟨token, rest, rfl⟩ := List.exists_cons_of_ne_nil nonempty
  simp only [advanceAll, advance, meet, meetExpression]
  cases met : meetTerm token draft with
  | error error => rfl
  | ok verdict =>
    cases verdict with
    | take goals taken => simp [Except.map, Verdict.andThen]
    | pass passed => exact (not_pass_term met).elim

theorem advanceAll_term (plain : token.kind ≠ .operator .subtract) :
    advanceAll (.term :: later) (token :: tokens) draft =
      advanceAll (.factor :: .termTail :: later) (token :: tokens) draft := by
  simp only [advanceAll, advance, meet]
  have unsigned : meetTerm token draft = (meetFactor token draft).map (·.andThen [.termTail]) := by
    unfold meetTerm
    split
    next minus => exact absurd minus plain
    next => rfl
  rw [unsigned]
  cases met : meetFactor token draft with
  | error error => rfl
  | ok verdict =>
    cases verdict with
    | take goals taken => simp [Except.map, Verdict.andThen]
    | pass passed => exact (not_pass_factor met).elim

/-- The target of an assignment is resolved when its expression begins. -/
theorem advanceAll_assignment {target : Token} (nonempty : tokens ≠ []) :
    advanceAll (.assignment target :: later) tokens draft =
      draft.resolveVariable target >>= fun symbol =>
        advanceAll (.expression :: .emit .store (.integer symbol.address) :: later) tokens draft := by
  obtain ⟨token, rest, rfl⟩ := List.exists_cons_of_ne_nil nonempty
  simp only [advanceAll, advance, meet]
  cases draft.resolveVariable target with
  | error error => rfl
  | ok symbol =>
    simp only [bind, Except.bind]
    cases met : meetExpression token draft with
    | error error => rfl
    | ok verdict =>
      cases verdict with
      | take goals taken => simp [Except.map, Verdict.andThen]
      | pass passed => exact (not_pass_expression met).elim

def continuesTerm : TokenKind → Bool
  | .operator .multiply | .operator .divide => true
  | _ => false

def continuesExpression : TokenKind → Bool
  | .operator _ => true
  | _ => false

theorem advanceAll_termTail (other : continuesTerm token.kind = false) :
    advanceAll (.termTail :: later) (token :: tokens) draft =
      advanceAll later (token :: tokens) draft := by
  apply advanceAll_pass
  simp only [meet]
  split
  next times => simp [times, continuesTerm] at other
  next divided => simp [divided, continuesTerm] at other
  next => rfl

theorem advanceAll_expressionTail (other : continuesExpression token.kind = false) :
    advanceAll (.expressionTail :: later) (token :: tokens) draft =
      advanceAll later (token :: tokens) draft := by
  apply advanceAll_pass
  simp only [meet]
  split
  next plus => simp [plus, continuesExpression] at other
  next minus => simp [minus, continuesExpression] at other
  next => rfl

theorem continuesTerm_of_continuesExpression {kind : TokenKind}
    (other : continuesExpression kind = false) : continuesTerm kind = false := by
  unfold continuesExpression at other
  unfold continuesTerm
  split <;> simp_all

theorem advanceAll_emit {opcode : Opcode} {argument : Argument} :
    advanceAll (.emit opcode argument :: later) (token :: tokens) draft =
      advanceAll later (token :: tokens) (draft.emit opcode argument) :=
  advanceAll_pass rfl

theorem advanceAll_expect {kind : TokenKind} {expectation : Expectation} (found : token.kind = kind) :
    advanceAll (.expect kind expectation :: later) (token :: tokens) draft =
      advanceAll later tokens draft := by
  have met : (Goal.expect kind expectation).meet token draft = .ok (.take [] draft) := by
    simp only [meet, found, ↓reduceIte]
  exact advanceAll_take met

end Pascalet.Goal
