import Pascalet.Proofs.Descent.Goal
import Pascalet.Proofs.Tree.Basic

namespace Pascalet.Tree

open Goal (advanceAll continuesTerm continuesExpression)

mutual

def Factor.build : Factor → Draft → Except CompileError Draft
  | .name name, draft => do
    let symbol ← draft.resolveVariable name.token
    .ok (draft.emitAt .load symbol.address)
  | .literal literal, draft => .ok (draft.emit .constant (.text literal.lexeme))
  | .group _ inner _, draft => inner.build draft

def Factors.build : Factors → Draft → Except CompileError Draft
  | .done, draft => .ok draft
  | .more sign factor rest, draft => do
    let operands ← factor.build draft
    rest.build (operands.emit (.arithmetic sign.operator))

def Term.build : Term → Draft → Except CompileError Draft
  | .plain first rest, draft => do
    let begun ← first.build draft
    rest.build begun
  | .negated _ first rest, draft => do
    let begun ← first.build draft
    rest.build (begun.emit .negate)

def Terms.build : Terms → Draft → Except CompileError Draft
  | .done, draft => .ok draft
  | .more sign term rest, draft => do
    let operands ← term.build draft
    rest.build (operands.emit (.arithmetic sign.operator))

def Expression.build : Expression → Draft → Except CompileError Draft
  | .sum first rest, draft => do
    let begun ← first.build draft
    rest.build begun

end

def Condition.build (condition : Condition) (draft : Draft) : Except CompileError Draft := do
  let left ← condition.left.build draft
  let right ← condition.right.build left
  .ok (right.emit (.compare condition.relation))

theorem advanceAll_name (name : Name) (later : List Goal) (next : Token) (more : List Token)
    (draft : Draft) :
    advanceAll (.factor :: later) (name.token :: next :: more) draft =
      (Factor.name name).build draft >>= advanceAll later (next :: more) := by
  have met : Goal.factor.meet name.token draft = .ok (.take [.load name.token] draft) := rfl
  have performed : (Goal.load name.token).meet next draft =
      ((Factor.name name).build draft).map .pass := by
    simp only [Goal.meet, Factor.build]
    cases draft.resolveVariable name.token <;> rfl
  rw [Goal.advanceAll_take met]
  exact Goal.advanceAll_perform performed

theorem advanceAll_term_factor (factor : Factor) (later : List Goal) (rest : List Token)
    (draft : Draft) :
    advanceAll (.term :: later) (factor.tokens ++ rest) draft =
      advanceAll (.factor :: .termTail :: later) (factor.tokens ++ rest) draft := by
  cases factor with
  | name name => exact Goal.advanceAll_term (by simp [Terminal.token])
  | literal literal =>
    cases literal <;> exact Goal.advanceAll_term (by simp [Literal.token, Terminal.token])
  | group left inner right => exact Goal.advanceAll_term (by simp [Terminal.token])

theorem continuesTerm_sumSign (sign : SumSign) : continuesTerm sign.token.kind = false := by
  cases sign <;> rfl

theorem Terms.exists_next (terms : Terms) (next : Token) (more : List Token)
    (ends : continuesExpression next.kind = false) :
    ∃ token rest, terms.tokens ++ next :: more = token :: rest ∧
      continuesTerm token.kind = false := by
  cases terms with
  | done => exact ⟨next, more, rfl, Goal.continuesTerm_of_continuesExpression ends⟩
  | more sign term rest =>
    exact ⟨sign.token, term.tokens ++ rest.tokens ++ next :: more, by simp [Terms.tokens],
      continuesTerm_sumSign sign⟩

mutual

theorem Factor.advanceAll_tokens (factor : Factor) (later : List Goal) (next : Token)
    (more : List Token) (draft : Draft) :
    advanceAll (.factor :: later) (factor.tokens ++ next :: more) draft =
      factor.build draft >>= advanceAll later (next :: more) := by
  cases factor with
  | name name => exact advanceAll_name name later next more draft
  | literal literal =>
    have met : Goal.factor.meet literal.token draft =
        .ok (.take [] (draft.emit .constant (.text literal.lexeme))) := by
      cases literal <;> rfl
    exact Goal.advanceAll_take met
  | group left inner right =>
    have met : Goal.factor.meet left.token draft =
        .ok (.take [.expression, .expect .rightParen .parenthesisEnd] draft) := rfl
    simp only [Factor.tokens, Factor.build, List.cons_append, List.append_assoc, List.nil_append]
    rw [Goal.advanceAll_take met]
    simp only [List.cons_append, List.nil_append]
    rw [Expression.advanceAll_tokens inner _ right.token _ _ rfl]
    rfl

theorem Factors.advanceAll_tokens (factors : Factors) (later : List Goal) (next : Token)
    (more : List Token) (draft : Draft) (ends : continuesTerm next.kind = false) :
    advanceAll (.termTail :: later) (factors.tokens ++ next :: more) draft =
      factors.build draft >>= advanceAll later (next :: more) := by
  cases factors with
  | done => exact Goal.advanceAll_termTail ends
  | more sign factor rest =>
    have met : Goal.termTail.meet sign.token draft = .ok (.take
        [.factor, .emit (.arithmetic sign.operator) .absent, .termTail] draft) := by
      cases sign <;> rfl
    obtain ⟨token, tail, split⟩ : ∃ token tail, rest.tokens ++ next :: more = token :: tail :=
      List.exists_cons_of_ne_nil (by simp)
    simp only [Factors.tokens, Factors.build, List.cons_append, List.append_assoc, bind_assoc]
    rw [Goal.advanceAll_take met]
    simp only [List.cons_append, List.nil_append, split]
    rw [Factor.advanceAll_tokens factor]
    congr 1
    funext operands
    rw [Goal.advanceAll_emit, ← split]
    exact Factors.advanceAll_tokens rest later next more _ ends

theorem Term.advanceAll_tokens (term : Term) (later : List Goal) (next : Token)
    (more : List Token) (draft : Draft) (ends : continuesTerm next.kind = false) :
    advanceAll (.term :: later) (term.tokens ++ next :: more) draft =
      term.build draft >>= advanceAll later (next :: more) := by
  cases term with
  | plain first rest =>
    obtain ⟨token, tail, split⟩ : ∃ token tail, rest.tokens ++ next :: more = token :: tail :=
      List.exists_cons_of_ne_nil (by simp)
    simp only [Term.tokens, Term.build, List.append_assoc, bind_assoc]
    rw [advanceAll_term_factor, split, Factor.advanceAll_tokens first]
    congr 1
    funext begun
    rw [← split]
    exact Factors.advanceAll_tokens rest later next more begun ends
  | negated sign first rest =>
    have met : Goal.term.meet sign.token draft =
        .ok (.take [.factor, .emit .negate .absent, .termTail] draft) := rfl
    obtain ⟨token, tail, split⟩ : ∃ token tail, rest.tokens ++ next :: more = token :: tail :=
      List.exists_cons_of_ne_nil (by simp)
    simp only [Term.tokens, Term.build, List.cons_append, List.append_assoc, bind_assoc]
    rw [Goal.advanceAll_take met]
    simp only [List.cons_append, List.nil_append, split]
    rw [Factor.advanceAll_tokens first]
    congr 1
    funext begun
    rw [Goal.advanceAll_emit, ← split]
    exact Factors.advanceAll_tokens rest later next more _ ends

theorem Terms.advanceAll_tokens (terms : Terms) (later : List Goal) (next : Token)
    (more : List Token) (draft : Draft) (ends : continuesExpression next.kind = false) :
    advanceAll (.expressionTail :: later) (terms.tokens ++ next :: more) draft =
      terms.build draft >>= advanceAll later (next :: more) := by
  cases terms with
  | done => exact Goal.advanceAll_expressionTail ends
  | more sign term rest =>
    have met : Goal.expressionTail.meet sign.token draft = .ok (.take
        [.term, .emit (.arithmetic sign.operator) .absent, .expressionTail] draft) := by
      cases sign <;> rfl
    obtain ⟨token, tail, split, stops⟩ := rest.exists_next next more ends
    simp only [Terms.tokens, Terms.build, List.cons_append, List.append_assoc, bind_assoc]
    rw [Goal.advanceAll_take met]
    simp only [List.cons_append, List.nil_append, split]
    rw [Term.advanceAll_tokens term _ _ _ _ stops]
    congr 1
    funext operands
    rw [Goal.advanceAll_emit, ← split]
    exact Terms.advanceAll_tokens rest later next more _ ends

theorem Expression.advanceAll_tokens (expression : Expression) (later : List Goal) (next : Token)
    (more : List Token) (draft : Draft) (ends : continuesExpression next.kind = false) :
    advanceAll (.expression :: later) (expression.tokens ++ next :: more) draft =
      expression.build draft >>= advanceAll later (next :: more) := by
  cases expression with
  | sum first rest =>
    obtain ⟨token, tail, split, stops⟩ := rest.exists_next next more ends
    rw [Goal.advanceAll_expression (by simp)]
    simp only [Expression.tokens, Expression.build, List.append_assoc, bind_assoc]
    rw [split, Term.advanceAll_tokens first _ _ _ _ stops]
    congr 1
    funext begun
    rw [← split]
    exact Terms.advanceAll_tokens rest later next more begun ends

end

theorem Condition.advanceAll_tokens (condition : Condition) (later : List Goal) (next : Token)
    (more : List Token) (draft : Draft) (ends : continuesExpression next.kind = false) :
    advanceAll (.expression :: .relation :: later) (condition.tokens ++ next :: more) draft =
      condition.build draft >>= advanceAll later (next :: more) := by
  have met (built : Draft) : Goal.relation.meet condition.sign.token built = .ok (.take
      [.expression, .emit (.compare condition.relation) .absent] built) := rfl
  simp only [Condition.tokens, Condition.build, List.cons_append, List.append_assoc, bind_assoc]
  rw [Expression.advanceAll_tokens condition.left _ condition.sign.token _ _ rfl]
  congr 1
  funext left
  rw [Goal.advanceAll_take (met left)]
  simp only [List.cons_append, List.nil_append]
  rw [Expression.advanceAll_tokens condition.right _ next _ _ ends]
  rfl

end Pascalet.Tree
