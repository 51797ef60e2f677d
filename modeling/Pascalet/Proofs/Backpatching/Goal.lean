import Pascalet.Compiler.Goal
import Pascalet.Proofs.Backpatching.Relocation

namespace Pascalet

def NameList.behind (jumps : Nat) : NameList → NameList
  | arguments name procedure => arguments name (procedure.behind jumps)
  | use => use

def Goal.behind (jumps : Nat) : Goal → Goal
  | names earlier use => names earlier (use.behind jumps)
  | namesTail found use => namesTail found (use.behind jumps)
  | procedures skips => procedures (skips.map (jumps + ·))
  | perform name procedure arguments => perform name (procedure.behind jumps) arguments
  | elseBranch skip => elseBranch (jumps + skip)
  | endOfIf leave => endOfIf (jumps + leave)
  | loopBody start => loopBody (jumps + start)
  | endOfLoop start leave => endOfLoop (jumps + start) (jumps + leave)
  | goal => goal

def Verdict.Behind (jumps : Nat) : Verdict → Verdict → Prop
  | pass draft, pass other => draft.Behind jumps other
  | take goals draft, take goalsToo other =>
    goalsToo = goals.map (Goal.behind jumps) ∧ draft.Behind jumps other
  | _, _ => False

namespace Goal

variable {jumps : Nat} {draft other : Draft}

theorem behind_andThen {first second : Except CompileError Verdict}
    (alike : Alike (Verdict.Behind jumps) first second) (later : List Goal)
    (same : later.map (Goal.behind jumps) = later) :
    Alike (Verdict.Behind jumps) (first.map (·.andThen later)) (second.map (·.andThen later)) := by
  refine alike.map fun verdict verdictToo behind => ?_
  cases verdict with
  | pass draft =>
    cases verdictToo with
    | pass other => exact behind
    | take goals other => exact behind.elim
  | take goals draft =>
    cases verdictToo with
    | pass other => exact behind.elim
    | take goalsToo other =>
      obtain ⟨rfl, drafts⟩ := behind
      refine ⟨?_, drafts⟩
      rw [List.map_append, same]

theorem meetFactor_behind (behind : draft.Behind jumps other) (token : Token) :
    Alike (Verdict.Behind jumps) (meetFactor token draft) (meetFactor token other) := by
  unfold meetFactor
  split
  · exact ⟨rfl, behind⟩
  · exact ⟨rfl, behind.emit .constant _ _⟩
  · exact ⟨rfl, behind.emit .constant _ _⟩
  · exact ⟨rfl, behind⟩
  · exact .same _

theorem meetTerm_behind (behind : draft.Behind jumps other) (token : Token) :
    Alike (Verdict.Behind jumps) (meetTerm token draft) (meetTerm token other) := by
  unfold meetTerm
  split
  · exact ⟨rfl, behind⟩
  · exact behind_andThen (meetFactor_behind behind token) _ rfl

theorem meetExpression_behind (behind : draft.Behind jumps other) (token : Token) :
    Alike (Verdict.Behind jumps) (meetExpression token draft) (meetExpression token other) :=
  behind_andThen (meetTerm_behind behind token) _ rfl

theorem statementGoals?_behind (token : Token) (start : Nat) :
    statementGoals? token (jumps + start) =
      (statementGoals? token start).map (List.map (Goal.behind jumps)) := by
  unfold statementGoals?
  split <;> rfl

theorem meet_behind (behind : draft.Behind jumps other) (goal : Goal) (token : Token) :
    Alike (Verdict.Behind jumps) (goal.meet token draft)
      ((goal.behind jumps).meet token other) := by
  cases goal with
  | expect kind expectation | optionalSemicolon | locals | statementsTail | relation | expressionTail
  | termTail | variableType found | parameterType found | procedureName =>
    simp only [Goal.behind, meet]
    repeat' split
    all_goals first | exact ⟨rfl, behind⟩ | exact behind | exact .same _
  | names earlier use =>
    simp only [Goal.behind, meet]
    repeat' split
    · exact ⟨rfl, behind⟩
    · exact .same _
    · exact .same _
  | namesTail found use =>
    have closer : (use.behind jumps).closer = use.closer := by cases use <;> rfl
    have expectation : (use.behind jumps).closerExpectation = use.closerExpectation := by
      cases use <;> rfl
    simp only [Goal.behind, meet, closer, expectation]
    repeat' split
    · exact ⟨rfl, behind⟩
    · refine ⟨?_, behind⟩
      cases use <;> rfl
    · exact .same _
  | programName =>
    simp only [Goal.behind, meet]
    split
    · exact ⟨rfl, { behind with code := behind.code.emit .start .absent .absent }⟩
    · exact .same _
  | endOfProgram =>
    simp only [Goal.behind, meet]
    split
    · exact ⟨rfl, behind.emit .stop _ _⟩
    · exact .same _
  | declarations =>
    simp only [Goal.behind, meet, behind.nextIndex]
    split
    · exact ⟨rfl, behind⟩
    · exact ⟨rfl, behind.emitJump .jump⟩
    · exact behind
  | declareVariables found type =>
    have declared := Alike.foldlM_same
      (fun _ _ name reached => Draft.Behind.declareVariable reached type name) found behind
    exact declared.map fun _ _ => id
  | declareParameters found type =>
    have declared := Alike.foldlM_same
      (fun _ _ name reached => Draft.Behind.declareParameter reached type name) found behind
    exact declared.map fun _ _ => id
  | procedures skips =>
    simp only [Goal.behind, meet, behind.nextIndex]
    split
    · exact ⟨by simp [Goal.behind], behind.emitJump .jump⟩
    · have patched := Alike.foldlM (jumps + ·)
        (fun _ _ skip reached => Draft.Behind.patchHere reached skip) skips behind
      exact patched.map fun _ _ => id
  | heading name =>
    refine (behind.openProcedure name).bind fun opened openedToo reached => ?_
    split
    · exact ⟨rfl, reached⟩
    · exact reached.declareProcedure
  | parametersTail =>
    simp only [Goal.behind, meet]
    repeat' split
    · exact ⟨rfl, behind⟩
    · exact ⟨rfl, behind.declareProcedure⟩
    · exact .same _
  | endOfProcedure =>
    simp only [Goal.behind, meet]
    split
    · exact ⟨rfl, behind.closeProcedure⟩
    · exact .same _
  | statements =>
    simp only [Goal.behind, meet, behind.nextIndex, statementGoals?_behind]
    cases statementGoals? token draft.code.nextIndex with
    | some goals => exact ⟨by simp [Goal.behind], behind⟩
    | none =>
      simp only [Option.map_none]
      split
      · exact ⟨rfl, behind⟩
      · exact behind
  | afterName name =>
    simp only [Goal.behind, meet]
    split
    · exact ⟨rfl, behind⟩
    · refine (behind.resolveProcedure name).bind ?_
      rintro procedure _ rfl
      split
      · exact ⟨rfl, behind⟩
      · exact (behind.emitCall name procedure []).map fun _ _ => id
  | assignment target =>
    refine (behind.resolveVariable target).bind ?_
    rintro _ symbol rfl
    exact behind_andThen (meetExpression_behind behind token) _ rfl
  | readInto found =>
    have read := Alike.foldlM_same
      (fun _ _ name reached => Draft.Behind.emitRead reached name) found behind
    exact read.map fun _ _ => id
  | perform name procedure arguments =>
    exact (behind.emitCall name procedure arguments).map fun _ _ => id
  | writeTail =>
    simp only [Goal.behind, meet]
    repeat' split
    · exact ⟨rfl, behind.emit .write _ _⟩
    · exact ⟨rfl, behind.emit .write _ _⟩
    · exact .same _
  | thenBranch | loopBody start =>
    simp only [Goal.behind, meet, behind.nextIndex]
    split
    · exact ⟨rfl, behind.emitJump .jumpIfZero⟩
    · exact .same _
  | elseBranch skip =>
    simp only [Goal.behind, meet, behind.nextIndex]
    refine ((behind.emitJump .jump).patchHere skip).bind fun left leftToo reached => ?_
    repeat' split
    · exact ⟨rfl, reached⟩
    · exact (reached.patchHere _).map fun _ _ patched => ⟨rfl, patched⟩
    · exact .same _
  | endOfIf leave =>
    simp only [Goal.behind, meet]
    split
    · exact (behind.patchHere leave).map fun _ _ patched => ⟨rfl, patched⟩
    · exact .same _
  | endOfLoop start leave =>
    simp only [Goal.behind, meet]
    split
    · exact ((behind.emit .jump _ _).patchHere leave).map fun _ _ patched => ⟨rfl, patched⟩
    · exact .same _
  | expression => exact meetExpression_behind behind token
  | term => exact meetTerm_behind behind token
  | factor => exact meetFactor_behind behind token
  | load name =>
    refine (behind.resolveVariable name).bind ?_
    rintro _ symbol rfl
    exact behind.emit .load _ _
  | emit opcode argument => exact behind.emit opcode argument argument

def BehindAll (jumps : Nat) (reached reachedToo : List Goal × Draft) : Prop :=
  reachedToo.1 = reached.1.map (Goal.behind jumps) ∧ reached.2.Behind jumps reachedToo.2

theorem advance_behind (behind : draft.Behind jumps other) (goals : List Goal) (token : Token) :
    Alike (BehindAll jumps) (advance goals token draft)
      (advance (goals.map (Goal.behind jumps)) token other) := by
  induction goals generalizing draft other with
  | nil => exact .same _
  | cons goal later ih =>
    rw [List.map_cons, advance, advance]
    rcases (meet_behind behind goal token).cases with
      ⟨verdict, verdictToo, met, metToo, holds⟩ | ⟨error, errorToo, met, metToo, same⟩
    · rw [met, metToo]
      cases verdict with
      | pass passed =>
        cases verdictToo with
        | pass passedToo => exact ih holds
        | take goals taken => exact holds.elim
      | take goals taken =>
        cases verdictToo with
        | pass passedToo => exact holds.elim
        | take goalsToo takenToo =>
          obtain ⟨rfl, drafts⟩ := holds
          exact ⟨List.map_append.symm, drafts⟩
    · rw [met, metToo]
      exact same

theorem advanceAll_behind (behind : draft.Behind jumps other) (goals : List Goal)
    (tokens : List Token) :
    Alike (BehindAll jumps) (advanceAll goals tokens draft)
      (advanceAll (goals.map (Goal.behind jumps)) tokens other) := by
  induction tokens generalizing goals draft other with
  | nil => exact ⟨rfl, behind⟩
  | cons token rest ih =>
    rw [advanceAll, advanceAll]
    rcases (advance_behind behind goals token).cases with
      ⟨reached, ⟨goalsToo, draftToo⟩, done, doneToo, rfl, drafts⟩ | ⟨error, other, done, doneToo, same⟩
    · rw [done, doneToo]
      exact ih drafts reached.1
    · rw [done, doneToo]
      exact same

end Goal

end Pascalet
