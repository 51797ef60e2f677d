import Pascalet.Proofs.Backpatching.Changes

namespace Pascalet

open Buffer (Change)

namespace Verdict

def draft : Verdict → Draft
  | pass draft => draft
  | take _ draft => draft

def waiting : Verdict → List Nat
  | pass _ => []
  | take goals _ => goals.flatMap Goal.waiting

def Yields (start : Buffer) (history : List Change) (others : List Nat) (verdict : Verdict) : Prop :=
  start.Yields history (verdict.waiting ++ others) verdict.draft.code

end Verdict

namespace Goal

variable {start : Buffer} {history : List Change} {others : List Nat} {draft : Draft}

theorem yields_andThen {verdict : Verdict} {later : List Goal}
    (yields : verdict.Yields start history others) (idle : later.flatMap waiting = []) :
    (verdict.andThen later).Yields start history others := by
  cases verdict with
  | pass draft => exact yields
  | take goals draft =>
    rw [Verdict.andThen, Verdict.Yields, Verdict.waiting, List.flatMap_append, idle, List.append_nil]
    exact yields

theorem yields_meetFactor (yields : start.Yields history others draft.code) (token : Token) :
    Located (Verdict.Yields start (history ++ token.loading) others) (meetFactor token draft) := by
  unfold meetFactor
  split
  case h_1 kind | h_4 kind =>
    simp only [Token.loading, kind, List.append_nil]
    exact yields
  case h_2 kind | h_3 kind =>
    simp only [Token.loading, kind]
    exact yields.emit .constant _
  case h_5 => rfl

theorem yields_meetTerm (yields : start.Yields history others draft.code) (token : Token) :
    Located (Verdict.Yields start (history ++ token.loading) others) (meetTerm token draft) := by
  unfold meetTerm
  split
  next kind =>
    simp only [Token.loading, kind, List.append_nil]
    exact yields
  next => exact (yields_meetFactor yields token).map fun _ met => yields_andThen met rfl

theorem yields_meetExpression (yields : start.Yields history others draft.code) (token : Token) :
    Located (Verdict.Yields start (history ++ token.loading) others) (meetExpression token draft) :=
  (yields_meetTerm yields token).map fun _ met => yields_andThen met rfl

theorem waiting_statementGoals {token : Token} {index : Nat} {goals : List Goal}
    (begun : statementGoals? token index = some goals) : goals.flatMap waiting = [] := by
  unfold statementGoals? at begun
  split at begun
  all_goals cases begun
  all_goals rfl

/-- A goal patches the jumps that it waits for or leaves goals that wait for them. -/
theorem yields_meet (goal : Goal) (token : Token)
    (yields : start.Yields history (goal.waiting ++ others) draft.code) :
    Located (Verdict.Yields start (history ++ goal.changes token draft) others)
      (goal.meet token draft) := by
  cases goal with
  | expect kind expectation | optionalSemicolon | locals | statementsTail | relation | expressionTail
  | termTail | names earlier use | variableType found | parameterType found | procedureName =>
    simp only [meet, changes, List.append_nil]
    repeat' split
    all_goals first | exact yields | rfl
  | namesTail found use =>
    simp only [meet, changes, List.append_nil]
    repeat' split
    · exact yields
    · cases use <;> exact yields
    · rfl
  | programName =>
    simp only [meet]
    split
    · exact yields.emit .start .absent
    · rfl
  | endOfProgram =>
    simp only [meet]
    split
    · exact yields.emit .stop .absent
    · rfl
  | declarations =>
    simp only [meet, changes]
    split
    next kind =>
      simp only [kind]
      exact yields.emitJump .jump
    next other =>
      rw [List.append_nil]
      split
      · exact yields
      next kind => exact absurd kind other
      · exact yields
  | declareVariables found type =>
    exact (Draft.yields_declareVariables yields type found).map fun _ declared => declared
  | declareParameters found type =>
    exact (Draft.yields_declareParameters yields type found).map fun _ declared => declared
  | procedures skips =>
    simp only [meet, changes]
    split
    · apply (yields.emitJump .jump).perm
      show (draft.code.size :: (skips ++ others)).Perm (skips ++ [draft.code.size] ++ [] ++ others)
      rw [List.append_nil, List.append_assoc]
      exact List.perm_middle.symm
    · exact (Buffer.Yields.patchAll yields).map fun _ patched => patched
  | heading name =>
    -- A procedure that has just begun has no parameters to store.
    have begun : Located (fun opened => opened.code = draft.code ∧ opened.storing = [])
        (draft.openProcedure name) :=
      (Draft.located_checkFresh name).bind fun _ _ => ⟨rfl, rfl⟩
    refine begun.bind fun opened ⟨same, nothing⟩ => ?_
    rw [← same] at yields
    split
    · exact yields.nothing
    · have declared := Draft.yields_declareProcedure yields
      rw [nothing] at declared
      exact declared
  | parametersTail =>
    simp only [meet, changes]
    repeat' split
    · rw [List.append_nil]
      exact yields
    · exact Draft.yields_declareProcedure yields
    · rfl
  | endOfProcedure =>
    simp only [meet]
    split
    · exact Draft.yields_closeProcedure yields
    · rfl
  | statements =>
    simp only [meet, changes, List.append_nil]
    split
    next goals begun =>
      show start.Yields _ _ _
      rw [Verdict.waiting, List.flatMap_append, waiting_statementGoals begun]
      exact yields
    next => split <;> exact yields
  | afterName name =>
    simp only [meet, changes]
    by_cases assigned : token.kind = .assign
    · rw [if_pos assigned, if_pos (Or.inl assigned)]
      exact yields.nothing
    · rw [if_neg assigned]
      refine (Draft.located_resolveProcedure name).bind fun procedure found => ?_
      by_cases opened : token.kind = .leftParen
      · rw [if_pos opened, if_pos (Or.inr opened)]
        exact yields.nothing
      · rw [if_neg opened, if_neg (not_or.mpr ⟨assigned, opened⟩), Draft.symbolsOf_singleton found,
          List.flatMap_singleton]
        exact (Draft.yields_emitCall yields name procedure []).map fun _ called => called
  | assignment target =>
    apply (Draft.located_resolveVariable target).bind
    intro symbol _
    exact (yields_meetExpression yields token).map fun _ met => yields_andThen met rfl
  | readInto found => exact (Draft.yields_emitReads yields found).map fun _ reached => reached
  | perform name procedure arguments =>
    exact (Draft.yields_emitCall yields name procedure arguments).map fun _ called => called
  | writeTail =>
    simp only [meet]
    repeat' split
    · exact yields.emit .write .absent
    · exact yields.emit .write .absent
    · rfl
  | thenBranch | loopBody start =>
    simp only [meet]
    split
    · exact yields.emitJump .jumpIfZero
    · rfl
  | elseBranch skip =>
    simp only [meet, changes]
    have grown : (draft.emitJump .jump).code.size = draft.code.size + 1 := Array.size_push _
    -- The branch ends with a jump of its own, which waits in place of the one over the branch.
    have jumped : start.Yields (history ++ [.emitJump .jump]) (skip :: draft.code.size :: others)
        (draft.emitJump .jump).code := (yields.emitJump .jump).perm (.swap skip draft.code.size others)
    refine (Buffer.Yields.patchHere jumped grown).bind fun left reached => ?_
    by_cases followed : token.kind = .keyword .elseWord
    · rw [if_pos followed, if_pos followed, List.append_cons]
      exact reached
    · rw [if_neg followed, if_neg followed, List.append_cons, List.append_cons]
      split
      · have size := (jumped.size_append reached).trans grown
        exact (Buffer.Yields.patchHere reached size).map fun _ patched => patched
      · rfl
  | endOfIf leave =>
    simp only [meet]
    split
    · exact (Buffer.Yields.patchHere yields rfl).map fun _ patched => patched
    · rfl
  | endOfLoop index leave =>
    simp only [meet, changes]
    split
    · have closed : start.Yields (history ++ [.emit .jump (.integer index)]) (leave :: others)
          (draft.emitAt .jump index).code := yields.emit .jump (.integer index)
      rw [List.append_cons]
      exact (Buffer.Yields.patchHere closed (Array.size_push _)).map fun _ patched => patched
    · rfl
  | expression => exact yields_meetExpression yields token
  | term => exact yields_meetTerm yields token
  | factor => exact yields_meetFactor yields token
  | load name =>
    refine (Draft.located_resolveVariable name).bind fun symbol found => ?_
    rw [changes, Draft.symbolsOf_singleton found]
    exact yields.emit .load (.integer symbol.address)
  | emit opcode argument => exact yields.emit opcode argument

theorem waits_meet (goal : Goal) (token : Token)
    (waits : draft.code.pending.Perm (goal.waiting ++ others)) :
    Located (fun verdict => verdict.draft.code.pending.Perm (verdict.waiting ++ others))
      (goal.meet token draft) := by
  have met := yields_meet goal token ⟨.nothing draft.code, waits⟩
  cases answer : goal.meet token draft with
  | error error =>
    rw [answer] at met
    exact met
  | ok verdict =>
    rw [answer] at met
    exact met.waits

variable {goals : List Goal}

theorem waits_advance (token : Token)
    (waits : draft.code.pending.Perm (goals.flatMap waiting ++ others)) :
    Located (fun (remaining, advanced) =>
        advanced.code.pending.Perm (remaining.flatMap waiting ++ others))
      (advance goals token draft) := by
  induction goals generalizing draft with
  | nil => rfl
  | cons goal later ih =>
    rw [List.flatMap_cons, List.append_assoc] at waits
    have met := waits_meet goal token waits
    unfold advance
    cases answer : goal.meet token draft with
    | error error =>
      rw [answer] at met
      exact met
    | ok verdict =>
      rw [answer] at met
      cases verdict with
      | pass passed => exact ih met
      | take taken draft =>
        show List.Perm _ _
        rw [List.flatMap_append, List.append_assoc]
        exact met

theorem waits_advanceAll (tokens : List Token)
    (waits : draft.code.pending.Perm (goals.flatMap waiting ++ others)) :
    Located (fun (remaining, advanced) =>
        advanced.code.pending.Perm (remaining.flatMap waiting ++ others))
      (advanceAll goals tokens draft) := by
  induction tokens generalizing goals draft with
  | nil => exact waits
  | cons token rest ih =>
    have advanced := waits_advance token waits
    unfold advanceAll
    cases reached : advance goals token draft with
    | error error =>
      rw [reached] at advanced
      exact advanced
    | ok pair =>
      rw [reached] at advanced
      exact ih advanced

end Goal

end Pascalet
