import Pascalet.Proofs.Descent.Goal
import Pascalet.Proofs.Formula.Basic
import Pascalet.Proofs.Layout.Draft
import Pascalet.Proofs.Token.Tokenized

namespace Pascalet

namespace Goal

def passAll? : List Goal → Token → Draft → Option Draft
  | [], _, draft => some draft
  | goal :: later, token, draft =>
    match goal.meet token draft with
    | .ok (.pass passed) => passAll? later token passed
    | _ => none

/-- The draft after goals that take a text and nothing of the token behind it. -/
def consume? (goals : List Goal) (tokens : List Token) (next : Token) (draft : Draft) :
    Option Draft :=
  match advanceAll goals tokens draft with
  | .ok (remaining, reached) => passAll? remaining next reached
  | .error _ => none

variable {goals remaining later : List Goal} {token next : Token} {tokens more : List Token}
  {draft reached result : Draft} {final : List Goal × Draft}

theorem advance_later (met : advance goals token draft = .ok (remaining, reached))
    (later : List Goal) : advance (goals ++ later) token draft = .ok (remaining ++ later, reached) := by
  induction goals generalizing draft with
  | nil => cases met
  | cons goal goals ih =>
    simp only [advance, List.cons_append] at met ⊢
    cases verdict : goal.meet token draft with
    | error error => rw [verdict] at met; cases met
    | ok answer =>
      rw [verdict] at met
      cases answer with
      | pass passed => exact ih met
      | take own taken => cases met; simp only [List.append_assoc]

theorem advanceAll_later (met : advanceAll goals tokens draft = .ok (remaining, reached))
    (later : List Goal) (more : List Token) :
    advanceAll (goals ++ later) (tokens ++ more) draft = advanceAll (remaining ++ later) more reached := by
  induction tokens generalizing goals draft with
  | nil =>
    cases met
    rfl
  | cons token tokens ih =>
    simp only [advanceAll, List.cons_append] at met ⊢
    cases step : advance goals token draft with
    | error error => rw [step] at met; cases met
    | ok pair =>
      rw [step] at met
      rw [advance_later step later]
      exact ih met

theorem advanceAll_passAll (passed : passAll? goals next draft = some result) :
    advanceAll (goals ++ later) (next :: more) draft = advanceAll later (next :: more) result := by
  induction goals generalizing draft with
  | nil =>
    cases passed
    rfl
  | cons goal goals ih =>
    simp only [passAll?] at passed
    split at passed
    next passedDraft verdict => exact (advanceAll_pass verdict).trans (ih passed)
    next => cases passed

theorem advanceAll_of_consume (consumed : consume? goals tokens next draft = some result) :
    advanceAll (goals ++ later) (tokens ++ next :: more) draft =
      advanceAll later (next :: more) result := by
  unfold consume? at consumed
  split at consumed
  next remaining reached met => exact (advanceAll_later met later _).trans (advanceAll_passAll consumed)
  next => cases consumed

theorem exists_symbol_of_load (met : advanceAll (.load token :: later) (next :: more) draft = .ok final) :
    ∃ symbol, draft.symbols.lookup? token.lexeme = some symbol ∧ symbol.isProcedure = false ∧
      advanceAll later (next :: more) (draft.extend [⟨.load, .integer symbol.address⟩] []) =
        .ok final := by
  have performed : (Goal.load token).meet next draft =
      ((draft.resolveVariable token).map fun symbol => draft.emitAt .load symbol.address).map .pass := by
    simp only [meet]
    cases draft.resolveVariable token <;> rfl
  rw [advanceAll_perform performed] at met
  unfold Draft.resolveVariable Draft.resolve at met
  cases found : draft.symbols.lookup? token.lexeme with
  | none => rw [found] at met; cases met
  | some symbol =>
    rw [found] at met
    cases procedure : symbol.isProcedure with
    | true => simp [bind, Except.bind, Except.map, procedure] at met
    | false =>
      refine ⟨symbol, rfl, procedure, ?_⟩
      simpa [bind, Except.bind, Except.map, procedure, Draft.emitAt_eq_extend] using met

def emits (code : List Instruction) : List Goal :=
  code.map fun instruction => .emit instruction.opcode instruction.argument

theorem advanceAll_emits (code : List Instruction) (later : List Goal) (draft : Draft) :
    advanceAll (emits code ++ later) (next :: more) draft =
      advanceAll later (next :: more) (draft.extend code []) := by
  induction code generalizing draft with
  | nil => rw [Draft.extend_nil]; rfl
  | cons instruction code ih =>
    refine advanceAll_emit.trans ((ih _).trans ?_)
    rw [Draft.emit_eq_extend, Draft.extend_extend]
    rfl

theorem last_of_advanceAll {goal : Goal}
    (met : advanceAll (goal :: later) [next] draft = .ok ([], result)) :
    (∃ passed, goal.meet next draft = .ok (.pass passed) ∧
      advanceAll later [next] passed = .ok ([], result)) ∨
    ∃ taken, goal.meet next draft = .ok (.take [] taken) := by
  cases verdict : goal.meet next draft with
  | error error => rw [advanceAll_error verdict] at met; cases met
  | ok answer =>
    cases answer with
    | pass passed =>
      rw [advanceAll_pass verdict] at met
      exact .inl ⟨passed, rfl, met⟩
    | take own taken =>
      rw [advanceAll_take verdict] at met
      have nothing : own ++ later = [] := congrArg Prod.fst (Except.ok.inj met)
      rw [(List.append_eq_nil_iff.mp nothing).1]
      exact .inr ⟨taken, rfl⟩

theorem termTail_last (met : advanceAll (.termTail :: later) [next] draft = .ok ([], result)) :
    advanceAll later [next] draft = .ok ([], result) := by
  rcases last_of_advanceAll met with ⟨passed, verdict, rest⟩ | ⟨taken, verdict⟩ <;>
    simp only [meet] at verdict <;> split at verdict <;> cases verdict
  exact rest

theorem expressionTail_last
    (met : advanceAll (.expressionTail :: later) [next] draft = .ok ([], result)) :
    advanceAll later [next] draft = .ok ([], result) := by
  rcases last_of_advanceAll met with ⟨passed, verdict, rest⟩ | ⟨taken, verdict⟩ <;>
    simp only [meet] at verdict <;> split at verdict <;> cases verdict
  exact rest

theorem advanceAll_multiplies {operator : Operator} (signed : token.kind = .operator operator)
    (multiplies : operator = .multiply ∨ operator = .divide) :
    advanceAll (.termTail :: later) (token :: more) draft =
      advanceAll (.factor :: .emit (.arithmetic operator) .absent :: .termTail :: later) more draft := by
  have met : termTail.meet token draft =
      .ok (.take [.factor, .emit (.arithmetic operator) .absent, .termTail] draft) := by
    rcases multiplies with rfl | rfl <;> simp only [meet, signed]
  exact advanceAll_take met

theorem advanceAll_adds {operator : Operator} (signed : token.kind = .operator operator)
    (adds : operator = .add ∨ operator = .subtract) :
    advanceAll (.expressionTail :: later) (token :: more) draft =
      advanceAll (.term :: .emit (.arithmetic operator) .absent :: .expressionTail :: later) more
        draft := by
  have met : expressionTail.meet token draft =
      .ok (.take [.term, .emit (.arithmetic operator) .absent, .expressionTail] draft) := by
    rcases adds with rfl | rfl <;> simp only [meet, signed]
  exact advanceAll_take met

end Goal

namespace Formula

open Goal (advanceAll continuesTerm continuesExpression emits)

def Level.goals : Level → List Goal
  | factor => [.factor]
  | term => [.term]
  | expression => [.expression]
  | condition => [.expression, .relation]

/-- The goals behind an expression that has left some code, the last of it still to be emitted, come
to an end. -/
def Trails (code : List Instruction) (later : List Goal) (text : List Token) (draft : Draft)
    (final : List Goal × Draft) : Prop :=
  ∃ front last, code = front ++ last ∧
    advanceAll (.termTail :: (emits last ++ .expressionTail :: later)) text
      (draft.extend front []) = .ok final

def Level.Leaves (code : List Instruction) (later : List Goal) (text : List Token) (draft : Draft)
    (final : List Goal × Draft) : Level → Prop
  | factor => advanceAll later text (draft.extend code []) = .ok final
  | term => advanceAll (.termTail :: later) text (draft.extend code []) = .ok final
  | expression => Trails code later text draft final
  | condition => ∃ front relation, code = front ++ [⟨.compare relation, .absent⟩] ∧
    Trails front (.emit (.compare relation) .absent :: later) text draft final

def Level.Builds (level : Level) (tokens : List Token) (formula : Formula) : Prop :=
  ∀ (later : List Goal) (next : Token) (more : List Token) (draft : Draft)
    (final : List Goal × Draft),
    advanceAll (level.goals ++ later) (tokens ++ next :: more) draft = .ok final →
      ∃ code, Codes draft.symbols formula code ∧ level.Leaves code later (next :: more) draft final

variable {tokens front back : List Token} {token sign left right next : Token}
  {formula operand first second : Formula} {operator : Operator}

theorem builds_name (named : token.kind = .identifier) :
    Level.factor.Builds [token] (.name token.lexeme) := by
  intro later next more draft final run
  have met : Goal.factor.meet token draft = .ok (.take [.load token] draft) := by
    simp only [Goal.meet, Goal.meetFactor, named]
  obtain ⟨symbol, found, isCell, rest⟩ :=
    Goal.exists_symbol_of_load ((Goal.advanceAll_take met).symm.trans run)
  exact ⟨_, .name found isCell, rest⟩

theorem builds_literal (constant : token.kind.isLiteral = true) (plain : token.IsPlain) :
    Level.factor.Builds [token] (.literal token.lexeme) := by
  intro later next more draft final run
  have met : Goal.factor.meet token draft =
      .ok (.take [] (draft.extend [⟨.constant, .text token.lexeme⟩] [])) := by
    rw [← Draft.emit_eq_extend]
    unfold TokenKind.isLiteral at constant
    split at constant
    next kind => simp only [Goal.meet, Goal.meetFactor, kind]
    next kind => simp only [Goal.meet, Goal.meetFactor, kind]
    next => cases constant
  exact ⟨_, .literal (plain constant), (Goal.advanceAll_take met).symm.trans run⟩

theorem Trails.close {code : List Instruction} {later : List Goal} {more : List Token} {draft : Draft}
    {final : List Goal × Draft} (trails : Trails code later (next :: more) draft final)
    (ends : continuesExpression next.kind = false) :
    advanceAll later (next :: more) (draft.extend code []) = .ok final := by
  obtain ⟨front, last, rfl, run⟩ := trails
  rwa [Goal.advanceAll_termTail (Goal.continuesTerm_of_continuesExpression ends),
    Goal.advanceAll_emits, Goal.advanceAll_expressionTail ends, Draft.extend_extend] at run

theorem builds_group (opened : left.kind = .leftParen) (closed : right.kind = .rightParen)
    (inner : Level.expression.Builds tokens formula) :
    Level.factor.Builds (left :: (tokens ++ [right])) formula := by
  intro later next more draft final run
  have met : Goal.factor.meet left draft =
      .ok (.take [.expression, .expect .rightParen .parenthesisEnd] draft) := by
    simp only [Goal.meet, Goal.meetFactor, opened]
  simp only [List.cons_append, List.append_assoc, List.nil_append] at run
  obtain ⟨code, codes, trails⟩ := inner (.expect .rightParen .parenthesisEnd :: later) right
    (next :: more) draft final ((Goal.advanceAll_take met).symm.trans run)
  have behind := trails.close (by rw [closed]; rfl)
  exact ⟨code, codes, (Goal.advanceAll_expect closed).symm.trans behind⟩

theorem Reads.exists_first (reads : Reads .factor tokens formula) :
    ∃ token rest, tokens = token :: rest ∧ token.kind ≠ .operator .subtract := by
  cases reads with
  | name named => exact ⟨_, [], rfl, by simp [named]⟩
  | literal constant => exact ⟨_, [], rfl, fun minus => by rw [minus] at constant; cases constant⟩
  | group opened inner closed => exact ⟨_, _, rfl, by simp [opened]⟩

theorem builds_single (plain : ∃ token rest, tokens = token :: rest ∧ token.kind ≠ .operator .subtract)
    (only : Level.factor.Builds tokens formula) : Level.term.Builds tokens formula := by
  intro later next more draft final run
  obtain ⟨token, rest, rfl, noMinus⟩ := plain
  exact only (.termTail :: later) next more draft final ((Goal.advanceAll_term noMinus).symm.trans run)

theorem builds_negated (minus : sign.kind = .operator .subtract)
    (only : Level.factor.Builds tokens operand) :
    Level.term.Builds (sign :: tokens) (.negation operand) := by
  intro later next more draft final run
  have met : Goal.term.meet sign draft =
      .ok (.take [.factor, .emit .negate .absent, .termTail] draft) := by
    simp only [Goal.meet, Goal.meetTerm, minus]
  obtain ⟨code, codes, rest⟩ := only (.emit .negate .absent :: .termTail :: later) next more draft
    final ((Goal.advanceAll_take met).symm.trans run)
  refine ⟨_, .negation codes, ?_⟩
  rwa [Level.Leaves, Goal.advanceAll_emit, Draft.emit_eq_extend, Draft.extend_extend] at rest

theorem builds_product (signed : sign.kind = .operator operator)
    (multiplies : operator = .multiply ∨ operator = .divide)
    (earlier : Level.term.Builds front first) (last : Level.factor.Builds back second) :
    Level.term.Builds (front ++ sign :: back) (.operation operator first second) := by
  intro later next more draft final run
  rw [List.append_assoc] at run
  obtain ⟨code, codes, begun⟩ := earlier later sign (back ++ next :: more) draft final run
  obtain ⟨other, others, rest⟩ := last (.emit (.arithmetic operator) .absent :: .termTail :: later)
    next more _ final ((Goal.advanceAll_multiplies signed multiplies).symm.trans begun)
  refine ⟨_, .operation codes others, ?_⟩
  rwa [Level.Leaves, Draft.extend_extend, Goal.advanceAll_emit, Draft.emit_eq_extend,
    Draft.extend_extend] at rest

theorem builds_alone (only : Level.term.Builds tokens formula) :
    Level.expression.Builds tokens formula := by
  intro later next more draft final run
  obtain ⟨code, codes, rest⟩ := only (.expressionTail :: later) next more draft final
    ((Goal.advanceAll_expression (by simp)).symm.trans run)
  exact ⟨code, codes, code, [], by simp, rest⟩

theorem builds_sum (signed : sign.kind = .operator operator)
    (adds : operator = .add ∨ operator = .subtract)
    (earlier : Level.expression.Builds front first) (last : Level.term.Builds back second) :
    Level.expression.Builds (front ++ sign :: back) (.operation operator first second) := by
  intro later next more draft final run
  rw [List.append_assoc] at run
  obtain ⟨_, codes, code, waiting, rfl, begun⟩ :=
    earlier later sign (back ++ next :: more) draft final run
  have noFactor : continuesTerm sign.kind = false := by
    rw [signed]
    rcases adds with rfl | rfl <;> rfl
  rw [Goal.advanceAll_termTail noFactor, Goal.advanceAll_emits, Goal.advanceAll_adds signed adds,
    Draft.extend_extend] at begun
  obtain ⟨other, others, rest⟩ := last
    (.emit (.arithmetic operator) .absent :: .expressionTail :: later) next more _ final begun
  refine ⟨_, .operation codes others, code ++ waiting ++ other, [⟨.arithmetic operator, .absent⟩],
    rfl, ?_⟩
  rwa [Level.Leaves, Draft.extend_extend] at rest

theorem builds_comparison {relation : Relation} (signed : sign.kind = .relation relation)
    (earlier : Level.expression.Builds front first) (last : Level.expression.Builds back second) :
    Level.condition.Builds (front ++ sign :: back) (.comparison relation first second) := by
  intro later next more draft final run
  rw [List.append_assoc] at run
  obtain ⟨code, codes, trails⟩ :=
    earlier (.relation :: later) sign (back ++ next :: more) draft final run
  have begun := trails.close (by rw [signed]; rfl)
  have met : Goal.relation.meet sign (draft.extend code []) =
      .ok (.take [.expression, .emit (.compare relation) .absent] (draft.extend code [])) := by
    simp only [Goal.meet, signed]
  obtain ⟨other, others, ahead, waiting, rfl, rest⟩ := last
    (.emit (.compare relation) .absent :: later) next more _ final
    ((Goal.advanceAll_take met).symm.trans begun)
  refine ⟨_, .comparison codes others, code ++ (ahead ++ waiting), relation, rfl, code ++ ahead,
    waiting, (List.append_assoc ..).symm, ?_⟩
  rwa [Draft.extend_extend] at rest

/-- Whatever is read as a formula gets the code of that formula. -/
theorem Reads.builds {level : Level} (reads : Reads level tokens formula)
    (plain : ∀ token ∈ tokens, token.IsPlain) : level.Builds tokens formula := by
  induction reads with
  | name named => exact builds_name named
  | literal constant => exact builds_literal constant (plain _ (List.mem_singleton_self _))
  | group opened inner closed ih =>
    exact builds_group opened closed (ih fun token member => plain token (by simp [member]))
  | single only ih => exact builds_single only.exists_first (ih plain)
  | negated minus only ih =>
    exact builds_negated minus (ih fun token member => plain token (by simp [member]))
  | product earlier signed multiplies last ihFirst ihLast =>
    exact builds_product signed multiplies (ihFirst fun token member => plain token (by simp [member]))
      (ihLast fun token member => plain token (by simp [member]))
  | alone only ih => exact builds_alone (ih plain)
  | sum earlier signed adds last ihFirst ihLast =>
    exact builds_sum signed adds (ihFirst fun token member => plain token (by simp [member]))
      (ihLast fun token member => plain token (by simp [member]))
  | comparison earlier signed last ihFirst ihLast =>
    exact builds_comparison signed (ihFirst fun token member => plain token (by simp [member]))
      (ihLast fun token member => plain token (by simp [member]))

theorem Trails.last {code : List Instruction} {later : List Goal} {draft result : Draft}
    (trails : Trails code later [next] draft ([], result)) :
    advanceAll later [next] (draft.extend code []) = .ok ([], result) := by
  obtain ⟨front, last, rfl, run⟩ := trails
  have emitted := Goal.termTail_last run
  rw [Goal.advanceAll_emits, Draft.extend_extend] at emitted
  exact Goal.expressionTail_last emitted

theorem Level.Leaves.last {level : Level} {code : List Instruction} {later : List Goal}
    {draft result : Draft} (leaves : level.Leaves code later [next] draft ([], result)) :
    advanceAll later [next] (draft.extend code []) = .ok ([], result) := by
  cases level with
  | factor => exact leaves
  | term => exact Goal.termTail_last leaves
  | expression => exact Trails.last leaves
  | condition =>
    obtain ⟨front, relation, rfl, trails⟩ := leaves
    have compared := trails.last
    rwa [Goal.advanceAll_emit, Draft.emit_eq_extend, Draft.extend_extend] at compared

theorem Reads.codes_of_consume {level : Level} {draft result : Draft}
    (reads : Reads level tokens formula) (plain : ∀ token ∈ tokens, token.IsPlain)
    (consumed : Goal.consume? level.goals tokens next draft = some result) :
    ∃ code, Codes draft.symbols formula code ∧ result = draft.extend code [] := by
  have bounded (settled : Draft) : advanceAll [.expect next.kind .operand] [next] settled =
      .ok ([], settled) := Goal.advanceAll_expect rfl
  have run : advanceAll (level.goals ++ [.expect next.kind .operand]) (tokens ++ [next]) draft =
      .ok ([], result) := (Goal.advanceAll_of_consume consumed).trans (bounded result)
  obtain ⟨code, codes, leaves⟩ := reads.builds plain _ next [] draft _ run
  have ended := (bounded (draft.extend code [])).symm.trans leaves.last
  exact ⟨code, codes, (congrArg Prod.snd (Except.ok.inj ended)).symm⟩

end Formula

end Pascalet
