import Pascalet.Proofs.Descent.Statement

namespace Pascalet.Tree

open Goal (advanceAll)

def Variables.build (vars : Variables) (draft : Draft) : Except CompileError Draft :=
  vars.typed.names.found.foldlM (Draft.declareVariable vars.typed.type.type) draft

def Typed.buildParameters (typed : Typed) (draft : Draft) : Except CompileError Draft :=
  typed.names.found.foldlM (Draft.declareParameter typed.type.type) draft

def Procedure.build (procedure : Procedure) (draft : Draft) : Except CompileError Draft := do
  let opened ← draft.openProcedure procedure.name.token
  let headed ← procedure.groups.foldlM (fun draft typed => typed.buildParameters draft) opened
  let entered ← procedure.locals.foldlM (fun draft declared => declared.build draft)
    headed.declareProcedure
  let finished ← procedure.body.build entered
  .ok finished.closeProcedure

def buildItems : (skips : List Nat) → List Item → Draft → Except CompileError Draft
  | skips, [], draft => skips.foldlM Draft.patchHere draft
  | skips, .vars declared :: rest, draft => do
    let patched ← skips.foldlM Draft.patchHere draft
    let built ← declared.build patched
    buildItems [] rest built
  | skips, .procedure declared :: rest, draft => do
    let built ← declared.build (draft.emitJump .jump)
    buildItems (skips ++ [draft.code.nextIndex]) rest built

def Program.build (program : Program) (draft : Draft) : Except CompileError Draft := do
  let declared ← buildItems [] program.items
    ({ draft with name := program.name.lexeme }.emit .start)
  let finished ← program.body.build declared
  .ok (finished.emit .stop)

theorem advanceAll_optional (semicolon : Option Semicolon) {next : Token} {later : List Goal}
    {more : List Token} {draft : Draft} (other : next.kind ≠ .semicolon) :
    advanceAll (.optionalSemicolon :: later) (optionalText semicolon ++ next :: more) draft =
      advanceAll later (next :: more) draft := by
  cases semicolon with
  | none =>
    apply Goal.advanceAll_pass
    simp only [Goal.meet, other, ↓reduceIte]
  | some terminal =>
    have met : Goal.optionalSemicolon.meet terminal.token draft = .ok (.take [] draft) := rfl
    exact Goal.advanceAll_take met

theorem dataType?_typeName (type : TypeName) : Goal.dataType? type.token.kind = some type.type := by
  cases type <;> rfl

theorem Variables.advanceAll_typed (vars : Variables) {next : Token} {later : List Goal}
    {more : List Token} {draft : Draft} (other : next.kind ≠ .semicolon) :
    advanceAll (.names [] .variableNames :: .optionalSemicolon :: later)
        (vars.typed.tokens ++ (optionalText vars.semicolon ++ next :: more)) draft =
      vars.build draft >>= advanceAll later (next :: more) := by
  obtain ⟨token, tail, split⟩ :
      ∃ token tail, optionalText vars.semicolon ++ next :: more = token :: tail :=
    List.exists_cons_of_ne_nil (by simp)
  have typed : (Goal.variableType vars.typed.names.found).meet vars.typed.type.token draft =
      .ok (.take [.declareVariables vars.typed.names.found vars.typed.type.type] draft) := by
    simp only [Goal.meet, dataType?_typeName]
  have declared : (Goal.declareVariables vars.typed.names.found
      vars.typed.type.type).meet token draft = (vars.build draft).map .pass := rfl
  simp only [Typed.tokens, List.append_assoc, List.cons_append, List.nil_append]
  rw [Names.advanceAll_closed _ .variableNames _ _ _ rfl]
  simp only [NameList.goal]
  rw [Goal.advanceAll_take typed, List.singleton_append, split,
    Goal.advanceAll_perform declared]
  congr 1
  funext built
  rw [← split]
  exact advanceAll_optional vars.semicolon other

theorem advanceAll_locals (locals : List Variables) {next : Token} {later : List Goal}
    {more : List Token} {draft : Draft} (notVar : next.kind ≠ .keyword .varWord)
    (notSemicolon : next.kind ≠ .semicolon) :
    advanceAll (.locals :: later) (locals.flatMap Variables.tokens ++ next :: more) draft =
      locals.foldlM (fun draft declared => declared.build draft) draft >>=
        advanceAll later (next :: more) := by
  induction locals generalizing draft with
  | nil =>
    apply Goal.advanceAll_pass
    simp only [Goal.meet, notVar, ↓reduceIte]
  | cons declared rest ih =>
    have met : Goal.locals.meet declared.word.token draft = .ok (.take
        [.names [] .variableNames, .optionalSemicolon, .locals] draft) := rfl
    obtain ⟨token, tail, split, other⟩ : ∃ token tail,
        rest.flatMap Variables.tokens ++ next :: more = token :: tail ∧ token.kind ≠ .semicolon := by
      cases rest with
      | nil => exact ⟨next, more, rfl, notSemicolon⟩
      | cons second rest => exact ⟨second.word.token, _, rfl, by simp [Terminal.token]⟩
    simp only [List.flatMap_cons, Variables.tokens, List.cons_append, List.append_assoc,
      List.foldlM_cons, bind_assoc]
    rw [Goal.advanceAll_take met]
    simp only [List.cons_append, List.nil_append]
    rw [split, Variables.advanceAll_typed declared other]
    congr 1
    funext built
    rw [← split]
    exact ih

theorem Typed.advanceAll_parameters (typed : Typed) (later : List Goal) (next : Token)
    (more : List Token) (draft : Draft) :
    advanceAll (.names [] .parameterNames :: later) (typed.tokens ++ next :: more) draft =
      typed.buildParameters draft >>= advanceAll (.parametersTail :: later) (next :: more) := by
  have met : (Goal.parameterType typed.names.found).meet typed.type.token draft = .ok (.take
      [.declareParameters typed.names.found typed.type.type, .parametersTail] draft) := by
    simp only [Goal.meet, dataType?_typeName]
  simp only [Typed.tokens, List.append_assoc, List.cons_append, List.nil_append]
  rw [Names.advanceAll_closed _ .parameterNames _ _ _ rfl]
  simp only [NameList.goal]
  rw [Goal.advanceAll_take met]
  exact Goal.advanceAll_perform rfl

theorem advanceAll_moreTyped (rest : List (Semicolon × Typed)) (right : Terminal .rightParen)
    (later : List Goal) (tokens : List Token) (draft : Draft) :
    advanceAll (.parametersTail :: later) (moreTyped rest ++ right.token :: tokens) draft =
      (rest.map (·.2)).foldlM (fun draft typed => typed.buildParameters draft) draft >>=
        fun headed => advanceAll later tokens headed.declareProcedure := by
  induction rest generalizing draft with
  | nil =>
    have met : Goal.parametersTail.meet right.token draft =
        .ok (.take [] draft.declareProcedure) := rfl
    exact Goal.advanceAll_take met
  | cons pair rest ih =>
    obtain ⟨semicolon, typed⟩ := pair
    have met : Goal.parametersTail.meet semicolon.token draft =
        .ok (.take [.names [] .parameterNames] draft) := rfl
    obtain ⟨token, tail, split⟩ :
        ∃ token tail, moreTyped rest ++ right.token :: tokens = token :: tail :=
      List.exists_cons_of_ne_nil (by simp)
    have expanded : moreTyped ((semicolon, typed) :: rest) ++ right.token :: tokens =
        semicolon.token :: (typed.tokens ++ (moreTyped rest ++ right.token :: tokens)) := by
      simp [moreTyped]
    rw [expanded, Goal.advanceAll_take met, List.singleton_append, split,
      Typed.advanceAll_parameters]
    simp only [List.map_cons, List.foldlM_cons, bind_assoc]
    congr 1
    funext built
    rw [← split]
    exact ih built

theorem advanceAll_heading (name : Name) (parameters : Option Parameters) {next : Token}
    {later : List Goal} {more : List Token} {draft : Draft} (other : next.kind ≠ .leftParen) :
    advanceAll (.heading name.token :: later)
        (parameters.elim [] Parameters.tokens ++ next :: more) draft =
      (draft.openProcedure name.token >>= fun opened =>
        (parameters.elim [] Parameters.groups).foldlM
          (fun draft typed => typed.buildParameters draft) opened) >>=
        fun headed => advanceAll later (next :: more) headed.declareProcedure := by
  cases opening : draft.openProcedure name.token with
  | error error =>
    obtain ⟨token, tail, split⟩ : ∃ token tail,
        parameters.elim [] Parameters.tokens ++ next :: more = token :: tail :=
      List.exists_cons_of_ne_nil (by simp)
    have met : (Goal.heading name.token).meet token draft = .error error := by
      simp only [Goal.meet, opening, bind, Except.bind]
    rw [split, Goal.advanceAll_error met]
    rfl
  | ok opened =>
    cases parameters with
    | none =>
      have met : (Goal.heading name.token).meet next draft = .ok (.pass opened.declareProcedure) := by
        simp only [Goal.meet, opening, bind, Except.bind, other, ↓reduceIte]
      exact Goal.advanceAll_pass met
    | some parameters =>
      have met : (Goal.heading name.token).meet parameters.left.token draft =
          .ok (.take [.names [] .parameterNames] opened) := by
        simp only [Goal.meet, opening, bind, Except.bind]
        rfl
      obtain ⟨token, tail, split⟩ : ∃ token tail,
          moreTyped parameters.rest ++ parameters.right.token :: next :: more = token :: tail :=
        List.exists_cons_of_ne_nil (by simp)
      simp only [Option.elim_some, Parameters.tokens, Parameters.groups, List.cons_append,
        List.append_assoc, List.nil_append, List.foldlM_cons, bind_assoc]
      rw [Goal.advanceAll_take met, List.singleton_append, split, Typed.advanceAll_parameters,
        ← split]
      change _ = parameters.first.buildParameters opened >>= _
      congr 1
      funext built
      exact advanceAll_moreTyped parameters.rest parameters.right later (next :: more) built

theorem Procedure.advanceAll_tail (procedure : Procedure) {next : Token} {later : List Goal}
    {more : List Token} {draft : Draft} (other : next.kind ≠ .semicolon) :
    advanceAll (.procedureName :: later) (procedure.tail ++ next :: more) draft =
      procedure.build draft >>= advanceAll later (next :: more) := by
  have met : Goal.procedureName.meet procedure.name.token draft =
      .ok (.take (Goal.procedureBody procedure.name.token) draft) := rfl
  have finished (built : Draft) : Goal.endOfProcedure.meet procedure.endWord.token built =
      .ok (.take [] built.closeProcedure) := rfl
  -- What follows the locals and what follows the heading, each with its first token.
  let body := procedure.beginWord.token :: (procedure.body.tokens ++
    procedure.endWord.token :: (optionalText procedure.close ++ next :: more))
  obtain ⟨inner, tail, split, notSemicolon, notParen⟩ : ∃ inner tail,
      procedure.locals.flatMap Variables.tokens ++ body = inner :: tail ∧
      inner.kind ≠ .semicolon ∧ inner.kind ≠ .leftParen := by
    cases procedure.locals with
    | nil => exact ⟨procedure.beginWord.token, _, rfl, by simp [Terminal.token]⟩
    | cons declared rest => exact ⟨declared.word.token, _, rfl, by simp [Terminal.token]⟩
  obtain ⟨token, after, headed, behindHeading⟩ : ∃ token after,
      optionalText procedure.semicolon ++ inner :: tail = token :: after ∧ token.kind ≠ .leftParen := by
    cases procedure.semicolon with
    | none => exact ⟨inner, tail, rfl, notParen⟩
    | some semicolon => exact ⟨semicolon.token, _, rfl, by simp [Terminal.token]⟩
  have expanded : procedure.tail ++ next :: more = procedure.name.token ::
      (procedure.parameters.elim [] Parameters.tokens ++ token :: after) := by
    rw [← headed, ← split]
    simp [Procedure.tail, body]
  rw [expanded, Goal.advanceAll_take met]
  simp only [Goal.procedureBody, Procedure.build, Procedure.groups, List.cons_append,
    List.nil_append, bind_assoc]
  rw [advanceAll_heading _ _ behindHeading, bind_assoc]
  congr 1
  funext opened
  congr 1
  funext parameterised
  rw [← headed, advanceAll_optional _ notSemicolon, ← split,
    advanceAll_locals _ (by simp [Terminal.token]) (by simp [Terminal.token])]
  congr 1
  funext entered
  rw [advanceAll_terminal, Statements.advanceAll_tokens _ _ procedure.endWord.token _ _ rfl]
  congr 1
  funext built
  rw [Goal.advanceAll_take (finished built)]
  exact advanceAll_optional _ other

def groupGoals (skips : List Nat) : List Goal :=
  if skips.isEmpty then [.declarations] else [.procedures skips, .declarations]

theorem advanceAll_noItem {skips : List Nat} {next : Token} {later : List Goal}
    {more : List Token} {draft : Draft} (notVar : next.kind ≠ .keyword .varWord)
    (notProcedure : next.kind ≠ .keyword .procedureWord) :
    advanceAll (groupGoals skips ++ later) (next :: more) draft =
      skips.foldlM Draft.patchHere draft >>= advanceAll later (next :: more) := by
  have passes (draft : Draft) :
      Goal.declarations.meet next draft = .ok (.pass draft) := by
    simp only [Goal.meet]
  cases skips with
  | nil => exact Goal.advanceAll_pass (passes draft)
  | cons skip skips =>
    have met : (Goal.procedures (skip :: skips)).meet next draft =
        ((skip :: skips).foldlM Draft.patchHere draft).map .pass := by
      simp only [Goal.meet, notProcedure, ↓reduceIte]
    simp only [groupGoals, List.isEmpty_cons, Bool.false_eq_true, ↓reduceIte, List.cons_append,
      List.nil_append]
    rw [Goal.advanceAll_perform met]
    congr 1
    funext patched
    exact Goal.advanceAll_pass (passes patched)

theorem advanceAll_variablesItem {skips : List Nat} {word : Word .varWord} {later : List Goal}
    {tokens : List Token} {draft : Draft} :
    advanceAll (groupGoals skips ++ later) (word.token :: tokens) draft =
      skips.foldlM Draft.patchHere draft >>= fun patched =>
        advanceAll (.names [] .variableNames :: .optionalSemicolon :: .declarations :: later)
          tokens patched := by
  cases skips with
  | nil =>
    have met : Goal.declarations.meet word.token draft = .ok (.take
        [.names [] .variableNames, .optionalSemicolon, .declarations] draft) := rfl
    exact Goal.advanceAll_take met
  | cons skip skips =>
    have met : (Goal.procedures (skip :: skips)).meet word.token draft =
        ((skip :: skips).foldlM Draft.patchHere draft).map .pass := rfl
    simp only [groupGoals, List.isEmpty_cons, Bool.false_eq_true, ↓reduceIte, List.cons_append,
      List.nil_append]
    rw [Goal.advanceAll_perform met]
    rfl

theorem advanceAll_procedureItem {skips : List Nat} {word : Word .procedureWord}
    {later : List Goal} {tokens : List Token} {draft : Draft} :
    advanceAll (groupGoals skips ++ later) (word.token :: tokens) draft =
      advanceAll (.procedureName :: (groupGoals (skips ++ [draft.code.nextIndex]) ++ later))
        tokens (draft.emitJump .jump) := by
  cases skips with
  | nil =>
    have met : Goal.declarations.meet word.token draft = .ok (.take
        [.procedureName, .procedures [draft.code.nextIndex], .declarations]
        (draft.emitJump .jump)) := rfl
    exact Goal.advanceAll_take met
  | cons skip skips =>
    have met : (Goal.procedures (skip :: skips)).meet word.token draft = .ok (.take
        [.procedureName, .procedures (skip :: skips ++ [draft.code.nextIndex])]
        (draft.emitJump .jump)) := rfl
    exact Goal.advanceAll_take met

theorem advanceAll_items (items : List Item) (skips : List Nat) {next : Token}
    {later : List Goal} {more : List Token} {draft : Draft}
    (notVar : next.kind ≠ .keyword .varWord) (notProcedure : next.kind ≠ .keyword .procedureWord)
    (notSemicolon : next.kind ≠ .semicolon) :
    advanceAll (groupGoals skips ++ later) (items.flatMap Item.tokens ++ next :: more) draft =
      buildItems skips items draft >>= advanceAll later (next :: more) := by
  induction items generalizing skips draft with
  | nil => exact advanceAll_noItem notVar notProcedure
  | cons item rest ih =>
    obtain ⟨token, tail, split, other⟩ : ∃ token tail,
        rest.flatMap Item.tokens ++ next :: more = token :: tail ∧ token.kind ≠ .semicolon := by
      cases rest with
      | nil => exact ⟨next, more, rfl, notSemicolon⟩
      | cons second rest =>
        cases second with
        | vars declared => exact ⟨declared.word.token, _, rfl, by simp [Terminal.token]⟩
        | procedure declared => exact ⟨declared.word.token, _, rfl, by simp [Terminal.token]⟩
    cases item with
    | vars declared =>
      simp only [List.flatMap_cons, Item.tokens, Variables.tokens, List.cons_append,
        List.append_assoc, buildItems, bind_assoc]
      rw [advanceAll_variablesItem]
      congr 1
      funext patched
      rw [split, Variables.advanceAll_typed declared other]
      congr 1
      funext built
      rw [← split]
      exact ih []
    | procedure declared =>
      simp only [List.flatMap_cons, Item.tokens, Procedure.tokens, List.cons_append,
        List.append_assoc, buildItems, bind_assoc]
      rw [advanceAll_procedureItem, split, Procedure.advanceAll_tail declared other]
      congr 1
      funext built
      rw [← split]
      exact ih _

/-- The goals of a program, put to the text of a tree, build what the tree builds. -/
theorem Program.advanceAll_tokens (program : Program) (last : Terminal .endOfInput)
    (draft : Draft) :
    advanceAll Goal.program (program.tokens ++ [last.token]) draft =
      (program.build draft).map fun built => ([], built) := by
  let named := { draft with name := program.name.lexeme }.emit .start
  have met : Goal.programName.meet program.name.token draft =
      .ok (.take Goal.programBody named) := rfl
  let body := program.beginWord.token :: (program.body.tokens ++
    [program.endWord.token, program.dot.token, last.token])
  obtain ⟨token, tail, split, other⟩ : ∃ token tail,
      program.items.flatMap Item.tokens ++ body = token :: tail ∧ token.kind ≠ .semicolon := by
    cases program.items with
    | nil => exact ⟨program.beginWord.token, _, rfl, by simp [Terminal.token]⟩
    | cons item rest =>
      cases item with
      | vars declared => exact ⟨declared.word.token, _, rfl, by simp [Terminal.token]⟩
      | procedure declared => exact ⟨declared.word.token, _, rfl, by simp [Terminal.token]⟩
  have expanded : program.tokens ++ [last.token] = program.word.token :: program.name.token ::
      (optionalText program.semicolon ++ token :: tail) := by
    rw [← split, Program.items_tokens]
    simp [Program.tokens, Program.tail, body]
  rw [expanded, Goal.program, advanceAll_terminal, Goal.advanceAll_take met]
  simp only [Goal.programBody, List.cons_append, List.nil_append]
  rw [advanceAll_optional _ other, ← split]
  change advanceAll (groupGoals [] ++ _) (_ ++ program.beginWord.token :: _) named = _
  rw [advanceAll_items program.items [] (by simp [Terminal.token]) (by simp [Terminal.token])
    (by simp [Terminal.token]), Program.build]
  cases buildItems [] program.items named with
  | error error => rfl
  | ok declared =>
    change advanceAll _ _ declared = _
    rw [advanceAll_terminal, Statements.advanceAll_tokens _ _ program.endWord.token _ _ rfl]
    change _ = Except.map _ (program.body.build declared >>= _)
    cases program.body.build declared <;> rfl

end Pascalet.Tree
