import Pascalet.Proofs.Recognition.Sentence
import Pascalet.Proofs.Renaming.Outcome

namespace Pascalet

/-- Some sentence begins with these tokens. -/
def Tree.Viable (tokens : List Token) : Prop :=
  ∃ rest, IsSentence (tokens ++ rest)

/-- A result that blames no other token than this one for an error in the text. -/
def Blames {α : Type} (token : Token) (result : Except CompileError α) : Prop :=
  ∀ expectation found, result = .error (.unexpected expectation found) → found = token

namespace Blames

variable {α β : Type} {token : Token} {result : Except CompileError α}

theorem ok (value : α) : Blames token (.ok value) := by
  intro expectation found failed
  cases failed

theorem unexpected (expectation : Expectation) :
    Blames token (.error (.unexpected expectation token) : Except CompileError α) := by
  intro other found failed
  cases failed
  rfl

theorem other {error : CompileError} (unrelated : error.errorClass ≠ .parse) :
    Blames token (.error error : Except CompileError α) := by
  intro expectation found failed
  cases failed
  exact absurd rfl unrelated

theorem map {use : α → β} (first : Blames token result) : Blames token (result.map use) := by
  intro expectation found failed
  cases result with
  | error cause =>
    cases failed
    exact first expectation found rfl
  | ok value => cases failed

theorem bind {use : α → Except CompileError β} (first : Blames token result)
    (second : ∀ value, Blames token (use value)) : Blames token (result >>= use) := by
  intro expectation found failed
  cases result with
  | error cause =>
    cases failed
    exact first expectation found rfl
  | ok value => exact second value expectation found failed

theorem mapM {step : α → Except CompileError β} (each : ∀ item, Blames token (step item))
    (items : List α) : Blames token (items.mapM step) := by
  induction items with
  | nil => exact ok []
  | cons item rest ih =>
    rw [List.mapM_cons]
    exact (each item).bind fun _ => ih.bind fun _ => ok _

theorem foldlM {step : β → α → Except CompileError β}
    (each : ∀ reached item, Blames token (step reached item)) (items : List α) (start : β) :
    Blames token (items.foldlM step start) := by
  induction items generalizing start with
  | nil => exact ok start
  | cons item rest ih =>
    rw [List.foldlM_cons]
    exact (each start item).bind ih

end Blames

namespace Draft

variable {token : Token} (draft : Draft)

theorem blames_patch (index target : Nat) : Blames token (draft.patch index target) := by
  unfold patch
  split
  · exact .ok _
  · exact .other nofun

theorem blames_resolve (name : Token) : Blames token (draft.resolve name) := by
  unfold resolve
  split
  · exact .ok _
  · exact .other nofun

theorem blames_resolveVariable (name : Token) : Blames token (draft.resolveVariable name) := by
  apply (draft.blames_resolve name).bind
  intro symbol
  split
  · exact .other nofun
  · exact .ok _

theorem blames_resolveProcedure (name : Token) : Blames token (draft.resolveProcedure name) := by
  apply (draft.blames_resolve name).bind
  intro symbol
  split
  · exact .ok _
  · exact .other nofun

theorem blames_checkFresh (name : Token) : Blames token (draft.checkFresh name) := by
  unfold checkFresh
  split
  · exact .other nofun
  · exact .ok _

theorem blames_emitCall (name : Token) (procedure : Symbol) (arguments : List Token) :
    Blames token (draft.emitCall name procedure arguments) := by
  unfold emitCall
  split
  · exact .other nofun
  · apply (Blames.mapM draft.blames_resolveVariable arguments).bind
    intro symbols
    exact (blames_patch _ _ _).bind fun _ => .ok _

end Draft

namespace Goal

variable {goals : List Goal} {token : Token}

theorem blames_meetFactor (draft : Draft) : Blames token (meetFactor token draft) := by
  unfold meetFactor
  split
  all_goals first | exact .ok _ | exact .unexpected _

theorem blames_meetTerm (draft : Draft) : Blames token (meetTerm token draft) := by
  unfold meetTerm
  split
  · exact .ok _
  · exact (blames_meetFactor draft).map

theorem blames_meetExpression (draft : Draft) : Blames token (meetExpression token draft) :=
  (blames_meetTerm draft).map

theorem blames_meet (goal : Goal) (draft : Draft) : Blames token (goal.meet token draft) := by
  cases goal with
  | expect kind expectation | optionalSemicolon | endOfProgram | locals | statementsTail | writeTail
  | programName | relation | expressionTail | termTail | names earlier use | variableType found
  | parameterType found | procedureName | namesTail found use | declarations | parametersTail
  | endOfProcedure | statements | thenBranch | loopBody start =>
    simp only [meet]
    repeat' split
    all_goals first | exact .ok _ | exact .unexpected _
  | declareVariables found type =>
    exact (Blames.foldlM (fun reached name => (reached.blames_checkFresh name).bind fun _ => .ok _)
      found draft).map
  | declareParameters found type =>
    exact (Blames.foldlM (fun reached name => (reached.blames_checkFresh name).bind fun _ => .ok _)
      found draft).map
  | procedures skips =>
    simp only [meet]
    split
    · exact .ok _
    · exact (Blames.foldlM (fun reached index => reached.blames_patch index _) skips draft).map
  | heading name =>
    apply Blames.bind ((draft.blames_checkFresh name).bind fun _ => .ok _)
    intro opened
    split
    · exact .ok _
    · exact .ok _
  | afterName name =>
    simp only [meet]
    split
    · exact .ok _
    · apply (draft.blames_resolveProcedure name).bind
      intro procedure
      split
      · exact .ok _
      · exact (draft.blames_emitCall name procedure []).map
  | assignment target =>
    exact (draft.blames_resolveVariable target).bind fun _ => (blames_meetExpression draft).map
  | readInto found =>
    exact (Blames.foldlM (fun reached name => (reached.blames_resolveVariable name).bind fun _ => .ok _)
      found draft).map
  | perform name procedure arguments => exact (draft.blames_emitCall name procedure arguments).map
  | elseBranch skip =>
    apply (Draft.blames_patch _ _ _).bind
    intro left
    split
    · exact .ok _
    · split
      · exact (left.blames_patch _ _).map
      · exact .unexpected _
  | endOfIf leave | endOfLoop start leave =>
    simp only [meet]
    split
    · exact (Draft.blames_patch _ _ _).map
    · exact .unexpected _
  | expression => exact blames_meetExpression draft
  | term => exact blames_meetTerm draft
  | factor => exact blames_meetFactor draft
  | load name => exact (draft.blames_resolveVariable name).bind fun _ => .ok _
  | emit opcode argument => exact .ok _

theorem blames_advance (goals : List Goal) (draft : Draft) :
    Blames token (advance goals token draft) := by
  induction goals generalizing draft with
  | nil => exact .unexpected _
  | cons goal later ih =>
    have met := @blames_meet token goal draft
    unfold advance
    cases answer : goal.meet token draft with
    | error error =>
      rw [answer] at met
      intro expectation found failed
      cases failed
      exact met expectation found rfl
    | ok verdict =>
      cases verdict with
      | pass passed => exact ih passed
      | take taken draft => exact .ok _

theorem exists_front_of_unexpected {tokens : List Token} {draft : Draft} {expectation : Expectation}
    {found : Token} (failed : advanceAll goals tokens draft = .error (.unexpected expectation found)) :
    ∃ front back reached, tokens = front ++ found :: back ∧
      advanceAll goals front draft = .ok reached ∧
      ∀ rest, advanceAll goals (front ++ found :: rest) draft =
        .error (.unexpected expectation found) := by
  induction tokens generalizing goals draft with
  | nil => cases failed
  | cons token tokens ih =>
    simp only [advanceAll] at failed
    cases step : advance goals token draft with
    | error error =>
      rw [step] at failed
      cases failed
      obtain rfl := blames_advance goals draft expectation found step
      refine ⟨[], tokens, _, rfl, rfl, fun rest => ?_⟩
      simp only [List.nil_append, advanceAll, step]
    | ok pair =>
      rw [step] at failed
      obtain ⟨front, back, reached, rfl, taken, refused⟩ := ih failed
      refine ⟨token :: front, back, reached, rfl, ?_, fun rest => ?_⟩
      · simp only [advanceAll, step, taken]
      · simp only [List.cons_append, advanceAll, step, refused]

/-- Tokens that are taken can be continued to a sentence. -/
theorem viable_of_advanceAll {tokens : List Token} {draft : Draft} {reached : List Goal × Draft}
    (taken : advanceAll program tokens draft = .ok reached) : Tree.Viable tokens := by
  obtain ⟨rest, demanded⟩ := exists_demandAll reached.1
  exact ⟨rest, isSentence_of_demandAll (demandAll_advanceAll taken demanded)⟩

theorem isSemantic_of_sentence {tokens : List Token} (sentence : Tree.IsSentence tokens)
    {error : CompileError} (failed : advanceAll program tokens {} = .error error) :
    error.isSemantic = true := by
  obtain ⟨tree, last, rfl⟩ := sentence
  have start : ({} : Draft).Reached {} [] :=
    { placed := rfl, cells := rfl, closed := rfl, inside := by simp [Buffer.PendingInside],
      fits := Context.fits_empty, length := rfl }
  rw [Tree.Program.advanceAll_tokens, tree.build_eq start] at failed
  exact tree.failsByNames.map.map error failed

end Goal

namespace Program

/-- A syntax error names the first token that no sentence allows at its place: the tokens in front of
it can be continued to a sentence, but not with it. The message shows the kind and the text of that
token, and the line is its line. -/
theorem syntax_error_at_first_unviable {source : String} {error : CompileError}
    (failed : compile source = .error error) (syntactic : error.errorClass = .parse) :
    ∃ front found back expectation,
      (tokenize source).tokens = front ++ found :: back ∧
      error = .unexpected expectation found ∧
      error.line? = some found.line ∧
      error.message = expectation.message ++ ", found " ++ (found.kind.label ++ " (" ++
        Text.quote (if found.kind = .endOfInput then "end of input" else found.lexeme) ++ ")") ∧
      Tree.Viable front ∧ ¬ Tree.Viable (front ++ [found]) := by
  obtain ⟨expectation, found, rfl⟩ : ∃ expectation found, error = .unexpected expectation found := by
    cases error with
    | unexpected expectation found => exact ⟨expectation, found, rfl⟩
    | _ => cases syntactic
  have refused : Goal.advanceAll Goal.program (tokenize source).tokens {} =
      .error (.unexpected expectation found) := by
    unfold compile ofTokens at failed
    split at failed
    next refused =>
      cases failed
      exact refused
    next => split at failed <;> cases failed
  obtain ⟨front, back, reached, tokens, taken, refusedAlways⟩ := Goal.exists_front_of_unexpected refused
  refine ⟨front, found, back, expectation, tokens, rfl, rfl, rfl, Goal.viable_of_advanceAll taken, ?_⟩
  rintro ⟨rest, sentence⟩
  rw [List.append_assoc] at sentence
  cases Goal.isSemantic_of_sentence sentence (refusedAlways rest)

/-- A choice that is not closed: the word behind it is to blame. -/
theorem syntax_error_at_first_unviable_unclosed :
    ∃ front back error,
      compile "program p; var x: real; begin if x > 0 then x := 1\nend." = .error error ∧
      error.errorClass = .parse ∧
      (tokenize "program p; var x: real; begin if x > 0 then x := 1\nend.").tokens =
        front ++ ⟨.keyword .endWord, "end", 2⟩ :: back ∧
      Tree.Viable front ∧ ¬ Tree.Viable (front ++ [⟨.keyword .endWord, "end", 2⟩]) := by
  have checked : (match compile "program p; var x: real; begin if x > 0 then x := 1\nend." with
      | .error error => decide (error = .unexpected .ifEnd ⟨.keyword .endWord, "end", 2⟩)
      | .ok _ => false) = true := by
    decide +kernel
  have failed : compile "program p; var x: real; begin if x > 0 then x := 1\nend." =
      .error (.unexpected .ifEnd ⟨.keyword .endWord, "end", 2⟩) := by
    split at checked
    next error failed => rw [failed, of_decide_eq_true checked]
    next => cases checked
  obtain ⟨front, found, back, expectation, tokens, same, _, _, viable, unviable⟩ :=
    syntax_error_at_first_unviable failed rfl
  cases same
  exact ⟨front, back, _, failed, rfl, tokens, viable, unviable⟩

end Program

end Pascalet
