import Pascalet.Proofs.Tree.Basic

namespace Pascalet.Tree

def Endless (tokens : List Token) : Prop :=
  ∀ token ∈ tokens, token.kind ≠ .endOfInput

@[simp]
theorem endless_nil : Endless [] := by
  intro token member
  cases member

@[simp]
theorem endless_cons {token : Token} {tokens : List Token} :
    Endless (token :: tokens) ↔ token.kind ≠ .endOfInput ∧ Endless tokens :=
  List.forall_mem_cons

@[simp]
theorem endless_append {front back : List Token} :
    Endless (front ++ back) ↔ Endless front ∧ Endless back :=
  List.forall_mem_append

theorem endless_flatMap {α : Type} {list : List α} {text : α → List Token}
    (each : ∀ part ∈ list, Endless (text part)) : Endless (list.flatMap text) := by
  intro token member
  obtain ⟨part, inside, found⟩ := List.mem_flatMap.mp member
  exact each part inside token found

@[simp]
theorem Terminal.kind_token {kind : TokenKind} (terminal : Terminal kind) :
    terminal.token.kind = kind := rfl

theorem Literal.notEnd (literal : Literal) : literal.token.kind ≠ .endOfInput := by
  cases literal <;> simp [Literal.token]

theorem ProductSign.notEnd (sign : ProductSign) : sign.token.kind ≠ .endOfInput := by
  cases sign <;> simp [ProductSign.token]

theorem SumSign.notEnd (sign : SumSign) : sign.token.kind ≠ .endOfInput := by
  cases sign <;> simp [SumSign.token]

theorem TypeName.notEnd (type : TypeName) : type.token.kind ≠ .endOfInput := by
  cases type <;> simp [TypeName.token]

mutual

theorem Factor.endless (factor : Factor) : Endless factor.tokens := by
  cases factor with
  | name name => simp [Factor.tokens]
  | literal literal => simp [Factor.tokens, literal.notEnd]
  | group left inner right => simp [Factor.tokens, Expression.endless inner]

theorem Factors.endless (factors : Factors) : Endless factors.tokens := by
  cases factors with
  | done => simp [Factors.tokens]
  | more sign factor rest =>
    simp [Factors.tokens, sign.notEnd, Factor.endless factor, Factors.endless rest]

theorem Term.endless (term : Term) : Endless term.tokens := by
  cases term with
  | plain first rest => simp [Term.tokens, Factor.endless first, Factors.endless rest]
  | negated sign first rest => simp [Term.tokens, Factor.endless first, Factors.endless rest]

theorem Terms.endless (terms : Terms) : Endless terms.tokens := by
  cases terms with
  | done => simp [Terms.tokens]
  | more sign term rest =>
    simp [Terms.tokens, sign.notEnd, Term.endless term, Terms.endless rest]

theorem Expression.endless (expression : Expression) : Endless expression.tokens := by
  cases expression with
  | sum first rest => simp [Expression.tokens, Term.endless first, Terms.endless rest]

end

theorem Condition.endless (condition : Condition) : Endless condition.tokens := by
  simp [Condition.tokens, Expression.endless]

theorem Names.endless (names : Names) : Endless names.tokens := by
  have rest : Endless (moreNames names.rest) := endless_flatMap (by simp)
  simp [Names.tokens, rest]

theorem Listed.endless (listed : Listed) : Endless listed.tokens := by
  simp [Listed.tokens, Names.endless]

mutual

theorem Statement.endless (statement : Statement) : Endless statement.tokens := by
  cases statement with
  | read word targets => simp [Statement.tokens, Listed.endless]
  | write word left first rest right =>
    have others : Endless (moreExpressions rest) := endless_flatMap (by simp [Expression.endless])
    simp [Statement.tokens, Expression.endless, others]
  | choose word condition thenWord body close =>
    simp [Statement.tokens, Condition.endless, Statements.endless body]
  | chooseElse word condition thenWord body elseWord other close =>
    simp [Statement.tokens, Condition.endless, Statements.endless body, Statements.endless other]
  | loop word condition doWord body close =>
    simp [Statement.tokens, Condition.endless, Statements.endless body]
  | assign target sign value => simp [Statement.tokens, Expression.endless]
  | call procedure arguments => cases arguments <;> simp [Statement.tokens, Listed.endless]

theorem Statements.endless (statements : Statements) : Endless statements.tokens := by
  cases statements with
  | empty => simp [Statements.tokens]
  | last statement => exact Statement.endless statement
  | skip semicolon rest => simp [Statements.tokens, Statements.endless rest]
  | more statement semicolon rest =>
    simp [Statements.tokens, Statement.endless statement, Statements.endless rest]

end

theorem endless_optionalText (semicolon : Option Semicolon) : Endless (optionalText semicolon) := by
  cases semicolon <;> simp [optionalText]

theorem Typed.endless (typed : Typed) : Endless typed.tokens := by
  simp [Typed.tokens, Names.endless, TypeName.notEnd]

theorem Variables.endless (vars : Variables) : Endless vars.tokens := by
  simp [Variables.tokens, Typed.endless, endless_optionalText]

theorem Parameters.endless (parameters : Parameters) : Endless parameters.tokens := by
  have rest : Endless (moreTyped parameters.rest) := endless_flatMap (by simp [Typed.endless])
  simp [Parameters.tokens, Typed.endless, rest]

theorem Procedure.endless (procedure : Procedure) : Endless procedure.tokens := by
  have parameters : Endless (procedure.parameters.elim [] Parameters.tokens) := by
    cases procedure.parameters <;> simp [Parameters.endless]
  have locals : Endless (procedure.locals.flatMap Variables.tokens) :=
    endless_flatMap fun declared _ => declared.endless
  simp [Procedure.tokens, Procedure.tail, parameters, locals, endless_optionalText,
    Statements.endless]

theorem Declaration.endless (declaration : Declaration) : Endless declaration.tokens := by
  cases declaration with
  | vars declared => exact declared.endless
  | procedures first rest =>
    have others : Endless (rest.flatMap Procedure.tokens) :=
      endless_flatMap fun declared _ => declared.endless
    simp [Declaration.tokens, Procedure.endless, others]

theorem Program.endless (program : Program) : Endless program.tokens := by
  have declared : Endless (program.declarations.flatMap Declaration.tokens) :=
    endless_flatMap fun declaration _ => declaration.endless
  simp [Program.tokens, Program.tail, declared, endless_optionalText, Statements.endless]

theorem Program.Spells.eq_nil {program : Program} {tokens rest : List Token} {token : Token}
    (spelled : program.Spells (tokens ++ token :: rest)) (last : token.kind = .endOfInput) :
    rest = [] := by
  obtain ⟨final, shown⟩ := spelled
  rcases List.eq_nil_or_concat rest with rfl | ⟨front, behind, rfl⟩
  · rfl
  · rw [List.concat_eq_append, ← List.cons_append, ← List.append_assoc] at shown
    have inside := (List.append_inj' shown rfl).1
    have endless := program.endless
    rw [← inside] at endless
    exact absurd last (endless token (by simp))

end Pascalet.Tree
