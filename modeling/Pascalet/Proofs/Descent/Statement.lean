import Pascalet.Proofs.Descent.Expression

namespace Pascalet.Tree

open Goal (advanceAll continuesExpression)

theorem advanceAll_moreNames (rest : List (Comma × Name)) (use : NameList) (later : List Goal)
    (tokens earlier : List Token) (draft : Draft) :
    advanceAll (.namesTail earlier use :: later) (moreNames rest ++ tokens) draft =
      advanceAll (.namesTail (earlier ++ rest.map (·.2.token)) use :: later) tokens draft := by
  induction rest generalizing earlier with
  | nil => simp [moreNames]
  | cons pair rest ih =>
    obtain ⟨comma, name⟩ := pair
    have separated : (Goal.namesTail earlier use).meet comma.token draft =
        .ok (.take [.names earlier use] draft) := rfl
    have named : (Goal.names earlier use).meet name.token draft =
        .ok (.take [.namesTail (earlier ++ [name.token]) use] draft) := rfl
    simp only [moreNames, List.flatMap_cons, List.cons_append, List.nil_append]
    rw [Goal.advanceAll_take separated, List.singleton_append, Goal.advanceAll_take named,
      List.singleton_append]
    have tail := ih (earlier ++ [name.token])
    simp only [moreNames] at tail
    rw [tail]
    simp

theorem Names.advanceAll_tokens (names : Names) (use : NameList) (later : List Goal)
    (tokens : List Token) (draft : Draft) :
    advanceAll (.names [] use :: later) (names.tokens ++ tokens) draft =
      advanceAll (.namesTail names.found use :: later) tokens draft := by
  have named : (Goal.names [] use).meet names.first.token draft =
      .ok (.take [.namesTail [names.first.token] use] draft) := rfl
  simp only [Names.tokens, List.cons_append]
  rw [Goal.advanceAll_take named, List.singleton_append, advanceAll_moreNames]
  simp [Names.found, Names.list, Function.comp_def]

theorem Names.advanceAll_closed (names : Names) (use : NameList) (later : List Goal)
    {closer : Token} (tokens : List Token) (draft : Draft) (closes : closer.kind = use.closer) :
    advanceAll (.names [] use :: later) (names.tokens ++ closer :: tokens) draft =
      advanceAll (use.goal names.found :: later) tokens draft := by
  have notComma : use.closer ≠ .comma := by cases use <;> simp [NameList.closer]
  have met : (Goal.namesTail names.found use).meet closer draft =
      .ok (.take [use.goal names.found] draft) := by
    simp only [Goal.meet, closes, notComma, ↓reduceIte]
  rw [Names.advanceAll_tokens, Goal.advanceAll_take met]
  rfl

def buildWrites : List (Comma × Expression) → Draft → Except CompileError Draft
  | [], draft => .ok draft
  | (_, expression) :: rest, draft => do
    let value ← expression.build draft
    buildWrites rest (value.emit .write)

mutual

def Statement.build : Statement → Draft → Except CompileError Draft
  | .read _ targets, draft => draft.emitReads targets.names.found
  | .write _ _ first rest _, draft => do
    let value ← first.build draft
    buildWrites rest (value.emit .write)
  | .choose _ condition _ body _, draft => do
    let tested ← condition.build draft
    let first ← body.build (tested.emitJump .jumpIfZero)
    let left ← (first.emitJump .jump).patchHere tested.code.nextIndex
    left.patchHere first.code.nextIndex
  | .chooseElse _ condition _ body _ other _, draft => do
    let tested ← condition.build draft
    let first ← body.build (tested.emitJump .jumpIfZero)
    let left ← (first.emitJump .jump).patchHere tested.code.nextIndex
    let second ← other.build left
    second.patchHere first.code.nextIndex
  | .loop _ condition _ body _, draft => do
    let tested ← condition.build draft
    let repeated ← body.build (tested.emitJump .jumpIfZero)
    (repeated.emitAt .jump draft.code.nextIndex).patchHere tested.code.nextIndex
  | .assign target _ value, draft => do
    let symbol ← draft.resolveVariable target.token
    let valued ← value.build draft
    .ok (valued.emitAt .store symbol.address)
  | .call name arguments, draft => do
    let procedure ← draft.resolveProcedure name.token
    draft.emitCall name.token procedure (arguments.elim [] (·.names.found))

def Statements.build : Statements → Draft → Except CompileError Draft
  | .empty, draft => .ok draft
  | .last statement, draft => statement.build draft
  | .skip _ rest, draft => rest.build draft
  | .more statement _ rest, draft => do
    let begun ← statement.build draft
    rest.build begun

end

def endsStatements : TokenKind → Bool
  | .keyword .endWord | .keyword .elseWord | .dollar => true
  | _ => false

def endsStatement : TokenKind → Bool
  | .semicolon => true
  | kind => endsStatements kind

theorem endsStatement_of_endsStatements {kind : TokenKind} (ends : endsStatements kind = true) :
    endsStatement kind = true := by
  unfold endsStatement
  split
  · rfl
  · exact ends

theorem endsStatement_spec {kind : TokenKind} (ends : endsStatement kind = true) :
    continuesExpression kind = false ∧ kind ≠ .assign ∧ kind ≠ .leftParen := by
  unfold endsStatement endsStatements at ends
  split at ends
  · simp [continuesExpression]
  · split at ends <;> simp_all [continuesExpression]

theorem exists_next_moreExpressions (rest : List (Comma × Expression))
    (right : Terminal .rightParen) (tokens : List Token) :
    ∃ token tail, moreExpressions rest ++ right.token :: tokens = token :: tail ∧
      continuesExpression token.kind = false := by
  cases rest with
  | nil => exact ⟨right.token, tokens, rfl, rfl⟩
  | cons pair rest => exact ⟨pair.1.token, _, rfl, rfl⟩

theorem advanceAll_writes (rest : List (Comma × Expression)) (right : Terminal .rightParen)
    (later : List Goal) (tokens : List Token) (draft : Draft) :
    advanceAll (.writeTail :: later) (moreExpressions rest ++ right.token :: tokens) draft =
      buildWrites rest (draft.emit .write) >>= advanceAll later tokens := by
  induction rest generalizing draft with
  | nil =>
    have met : Goal.writeTail.meet right.token draft = .ok (.take [] (draft.emit .write)) := rfl
    exact Goal.advanceAll_take met
  | cons pair rest ih =>
    obtain ⟨comma, expression⟩ := pair
    have met : Goal.writeTail.meet comma.token draft =
        .ok (.take [.expression, .writeTail] (draft.emit .write)) := rfl
    obtain ⟨token, tail, split, ends⟩ := exists_next_moreExpressions rest right tokens
    have expanded : moreExpressions ((comma, expression) :: rest) ++ right.token :: tokens =
        comma.token :: (expression.tokens ++ (moreExpressions rest ++ right.token :: tokens)) := by
      simp [moreExpressions]
    rw [expanded, split, Goal.advanceAll_take met]
    simp only [List.cons_append, List.nil_append, buildWrites, bind_assoc]
    rw [Expression.advanceAll_tokens expression _ _ _ _ ends]
    congr 1
    funext value
    rw [← split]
    exact ih value

theorem advanceAll_terminal {kind : TokenKind} (terminal : Terminal kind)
    (expectation : Expectation) (later : List Goal) (tokens : List Token) (draft : Draft) :
    advanceAll (.expect kind expectation :: later) (terminal.token :: tokens) draft =
      advanceAll later tokens draft :=
  Goal.advanceAll_expect rfl

theorem advanceAll_choice (word : Word .ifWord) (condition : Condition) (thenWord : Word .thenWord)
    (later : List Goal) (tokens : List Token) (draft : Draft) :
    advanceAll (.statements :: later)
        (word.token :: (condition.tokens ++ thenWord.token :: tokens)) draft =
      condition.build draft >>= fun tested =>
        advanceAll (.statements :: .elseBranch tested.code.nextIndex :: .statementsTail :: later)
          tokens (tested.emitJump .jumpIfZero) := by
  have met : Goal.statements.meet word.token draft = .ok (.take
      [.expression, .relation, .thenBranch, .statementsTail] draft) := rfl
  rw [Goal.advanceAll_take met]
  simp only [List.cons_append, List.nil_append]
  rw [Condition.advanceAll_tokens condition _ thenWord.token _ _ rfl]
  rfl

theorem advanceAll_elseBranch {skip : Nat} {close : Terminal .dollar} {later : List Goal}
    {tokens : List Token} {draft : Draft} :
    advanceAll (.elseBranch skip :: later) (close.token :: tokens) draft =
      (do let left ← (draft.emitJump .jump).patchHere skip
          left.patchHere draft.code.nextIndex) >>= advanceAll later tokens := by
  apply Goal.advanceAll_takeResult
  simp only [Goal.meet]
  cases (draft.emitJump .jump).patchHere skip <;> rfl

theorem advanceAll_elseBranch_elseWord {skip : Nat} {elseWord : Word .elseWord} {later : List Goal}
    {tokens : List Token} {draft : Draft} :
    advanceAll (.elseBranch skip :: later) (elseWord.token :: tokens) draft =
      (draft.emitJump .jump).patchHere skip >>= fun left =>
        advanceAll (.statements :: .endOfIf draft.code.nextIndex :: later) tokens left := by
  cases patched : (draft.emitJump .jump).patchHere skip with
  | error error =>
    have met : (Goal.elseBranch skip).meet elseWord.token draft = .error error := by
      simp only [Goal.meet, patched, bind, Except.bind]
    exact Goal.advanceAll_error met
  | ok left =>
    have met : (Goal.elseBranch skip).meet elseWord.token draft =
        .ok (.take [.statements, .endOfIf draft.code.nextIndex] left) := by
      simp only [Goal.meet, patched, bind, Except.bind]
      rfl
    rw [Goal.advanceAll_take met]
    rfl

theorem advanceAll_afterName {name : Name} {next : Token} {later : List Goal} {more : List Token}
    {draft : Draft} (notAssign : next.kind ≠ .assign) (notParen : next.kind ≠ .leftParen) :
    advanceAll (.afterName name.token :: later) (next :: more) draft =
      (Statement.call name none).build draft >>= advanceAll later (next :: more) := by
  apply Goal.advanceAll_perform
  simp only [Goal.meet, notAssign, notParen, ↓reduceIte, Statement.build]
  cases draft.resolveProcedure name.token <;> rfl

theorem advanceAll_afterName_listed {name : Name} {listed : Listed} {next : Token}
    {later : List Goal} {more : List Token} {draft : Draft} :
    advanceAll (.afterName name.token :: later) (listed.tokens ++ next :: more) draft =
      (Statement.call name (some listed)).build draft >>= advanceAll later (next :: more) := by
  simp only [Statement.build, Listed.tokens, List.cons_append, List.append_assoc, List.nil_append,
    bind_assoc]
  cases resolved : draft.resolveProcedure name.token with
  | error error =>
    have met : (Goal.afterName name.token).meet listed.left.token draft = .error error := by
      simp only [Goal.meet, resolved, bind, Except.bind]
      rfl
    exact Goal.advanceAll_error met
  | ok procedure =>
    have met : (Goal.afterName name.token).meet listed.left.token draft =
        .ok (.take [.names [] (.arguments name.token procedure)] draft) := by
      simp only [Goal.meet, resolved, bind, Except.bind]
      rfl
    rw [Goal.advanceAll_take met, List.singleton_append,
      Names.advanceAll_closed _ (.arguments name.token procedure) _ _ _ rfl]
    exact Goal.advanceAll_perform rfl

theorem advanceAll_noStatement {next : Token} {later : List Goal} {more : List Token}
    {draft : Draft} (ends : endsStatements next.kind = true) :
    advanceAll (.statements :: later) (next :: more) draft =
      advanceAll later (next :: more) draft := by
  have none : Goal.statementGoals? next draft.code.nextIndex = none := by
    unfold endsStatements at ends
    unfold Goal.statementGoals?
    split <;> simp_all
  have notSemicolon : next.kind ≠ .semicolon := by
    intro semicolon
    simp [semicolon, endsStatements] at ends
  apply Goal.advanceAll_pass
  simp only [Goal.meet, none, notSemicolon, ↓reduceIte]

theorem advanceAll_statementsTail {next : Token} {later : List Goal} {more : List Token}
    {draft : Draft} (ends : endsStatements next.kind = true) :
    advanceAll (.statementsTail :: later) (next :: more) draft =
      advanceAll later (next :: more) draft := by
  have notSemicolon : next.kind ≠ .semicolon := by
    intro semicolon
    simp [semicolon, endsStatements] at ends
  apply Goal.advanceAll_pass
  simp only [Goal.meet, notSemicolon, ↓reduceIte]

mutual

theorem Statement.advanceAll_tokens (statement : Statement) (later : List Goal) (next : Token)
    (more : List Token) (draft : Draft) (ends : endsStatement next.kind = true) :
    advanceAll (.statements :: later) (statement.tokens ++ next :: more) draft =
      statement.build draft >>= advanceAll (.statementsTail :: later) (next :: more) := by
  obtain ⟨notOperator, notAssign, notParen⟩ := endsStatement_spec ends
  cases statement with
  | read word targets =>
    have met : Goal.statements.meet word.token draft = .ok (.take
        [.expect .leftParen .readStart, .names [] .readTargets, .statementsTail] draft) := rfl
    simp only [Statement.tokens, Listed.tokens, List.cons_append, List.append_assoc,
      List.nil_append]
    rw [Goal.advanceAll_take met]
    simp only [List.cons_append, List.nil_append]
    rw [advanceAll_terminal, Names.advanceAll_closed _ .readTargets _ _ _ rfl]
    exact Goal.advanceAll_perform rfl
  | write word left first rest right =>
    have met : Goal.statements.meet word.token draft = .ok (.take
        [.expect .leftParen .writeStart, .expression, .writeTail, .statementsTail] draft) := rfl
    obtain ⟨token, tail, split, stops⟩ := exists_next_moreExpressions rest right (next :: more)
    simp only [Statement.tokens, Statement.build, List.cons_append, List.append_assoc,
      List.nil_append, bind_assoc]
    rw [Goal.advanceAll_take met]
    simp only [List.cons_append, List.nil_append]
    rw [advanceAll_terminal, split, Expression.advanceAll_tokens first _ _ _ _ stops]
    congr 1
    funext value
    rw [← split]
    exact advanceAll_writes rest right _ _ value
  | choose word condition thenWord body close =>
    simp only [Statement.tokens, Statement.build, List.cons_append, List.append_assoc,
      List.nil_append, bind_assoc]
    rw [advanceAll_choice]
    congr 1
    funext tested
    rw [Statements.advanceAll_tokens body _ close.token _ _ rfl]
    congr 1
    funext first
    rw [advanceAll_elseBranch, bind_assoc]
  | chooseElse word condition thenWord body elseWord other close =>
    simp only [Statement.tokens, Statement.build, List.cons_append, List.append_assoc,
      List.nil_append, bind_assoc]
    rw [advanceAll_choice]
    congr 1
    funext tested
    rw [Statements.advanceAll_tokens body _ elseWord.token _ _ rfl]
    congr 1
    funext first
    rw [advanceAll_elseBranch_elseWord]
    congr 1
    funext left
    rw [Statements.advanceAll_tokens other _ close.token _ _ rfl]
    congr 1
    funext second
    exact Goal.advanceAll_takeResult rfl
  | loop word condition doWord body close =>
    have met : Goal.statements.meet word.token draft = .ok (.take
        [.expression, .relation, .loopBody draft.code.nextIndex, .statementsTail] draft) := rfl
    have repeated (tested : Draft) :
        (Goal.loopBody draft.code.nextIndex).meet doWord.token tested = .ok (.take
          [.statements, .endOfLoop draft.code.nextIndex tested.code.nextIndex]
          (tested.emitJump .jumpIfZero)) := rfl
    simp only [Statement.tokens, Statement.build, List.cons_append, List.append_assoc,
      List.nil_append, bind_assoc]
    rw [Goal.advanceAll_take met]
    simp only [List.cons_append, List.nil_append]
    rw [Condition.advanceAll_tokens condition _ doWord.token _ _ rfl]
    congr 1
    funext tested
    rw [Goal.advanceAll_take (repeated tested)]
    simp only [List.cons_append, List.nil_append]
    rw [Statements.advanceAll_tokens body _ close.token _ _ rfl]
    congr 1
    funext built
    exact Goal.advanceAll_takeResult rfl
  | assign target sign value =>
    have met : Goal.statements.meet target.token draft = .ok (.take
        [.afterName target.token, .statementsTail] draft) := rfl
    have assigned : (Goal.afterName target.token).meet sign.token draft = .ok (.take
        [.assignment target.token] draft) := rfl
    simp only [Statement.tokens, Statement.build, List.cons_append, bind_assoc]
    rw [Goal.advanceAll_take met]
    simp only [List.cons_append, List.nil_append]
    rw [Goal.advanceAll_take assigned, List.singleton_append, Goal.advanceAll_assignment (by simp)]
    congr 1
    funext symbol
    rw [Expression.advanceAll_tokens value _ next _ _ notOperator]
    rfl
  | call name arguments =>
    have met : Goal.statements.meet name.token draft = .ok (.take
        [.afterName name.token, .statementsTail] draft) := rfl
    simp only [Statement.tokens, List.cons_append]
    rw [Goal.advanceAll_take met]
    simp only [List.cons_append, List.nil_append]
    cases arguments with
    | none => exact advanceAll_afterName notAssign notParen
    | some listed => exact advanceAll_afterName_listed

theorem Statements.advanceAll_tokens (statements : Statements) (later : List Goal) (next : Token)
    (more : List Token) (draft : Draft) (ends : endsStatements next.kind = true) :
    advanceAll (.statements :: later) (statements.tokens ++ next :: more) draft =
      statements.build draft >>= advanceAll later (next :: more) := by
  cases statements with
  | empty => exact advanceAll_noStatement ends
  | last statement =>
    simp only [Statements.tokens, Statements.build]
    rw [Statement.advanceAll_tokens statement later next more draft
      (endsStatement_of_endsStatements ends)]
    congr 1
    funext built
    exact advanceAll_statementsTail ends
  | skip semicolon rest =>
    have met : Goal.statements.meet semicolon.token draft =
        .ok (.take [.statements] draft) := rfl
    simp only [Statements.tokens, Statements.build, List.cons_append]
    rw [Goal.advanceAll_take met]
    exact Statements.advanceAll_tokens rest later next more draft ends
  | more statement semicolon rest =>
    have met (built : Draft) : Goal.statementsTail.meet semicolon.token built =
        .ok (.take [.statements] built) := rfl
    simp only [Statements.tokens, Statements.build, List.cons_append, List.append_assoc, bind_assoc]
    rw [Statement.advanceAll_tokens statement _ semicolon.token _ _ rfl]
    congr 1
    funext built
    rw [Goal.advanceAll_take (met built)]
    exact Statements.advanceAll_tokens rest later next more built ends

end

end Pascalet.Tree
