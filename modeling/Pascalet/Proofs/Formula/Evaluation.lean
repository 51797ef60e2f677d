import Pascalet.Proofs.Formula.Consumption
import Pascalet.Proofs.Recognition.Accepted

namespace Pascalet

namespace Tree

open Formula (Reads)

theorem ProductSign.multiplies (sign : ProductSign) :
    sign.operator = .multiply ∨ sign.operator = .divide := by
  cases sign
  · exact .inl rfl
  · exact .inr rfl

theorem SumSign.adds (sign : SumSign) : sign.operator = .add ∨ sign.operator = .subtract := by
  cases sign
  · exact .inl rfl
  · exact .inr rfl

mutual

theorem Factor.exists_reads (factor : Factor) : ∃ formula, Reads .factor factor.tokens formula := by
  cases factor with
  | name name => exact ⟨_, .name rfl⟩
  | literal literal => cases literal <;> exact ⟨_, .literal rfl⟩
  | group left inner right =>
    obtain ⟨formula, reads⟩ := Expression.exists_reads inner
    exact ⟨formula, .group rfl reads rfl⟩

/-- Further factors take what stands in front of them for their left operand. -/
theorem Factors.exists_reads (factors : Factors) {front : List Token} {first : Formula}
    (earlier : Reads .term front first) :
    ∃ formula, Reads .term (front ++ factors.tokens) formula := by
  cases factors with
  | done =>
    refine ⟨first, ?_⟩
    rwa [Factors.tokens, List.append_nil]
  | more sign factor rest =>
    obtain ⟨formula, reads⟩ := Factor.exists_reads factor
    have signed : sign.token.kind = .operator sign.operator := by cases sign <;> rfl
    obtain ⟨whole, all⟩ :=
      Factors.exists_reads rest (.product earlier signed sign.multiplies reads)
    refine ⟨whole, ?_⟩
    rwa [List.append_assoc] at all

theorem Term.exists_reads (term : Term) : ∃ formula, Reads .term term.tokens formula := by
  cases term with
  | plain first rest =>
    obtain ⟨formula, reads⟩ := Factor.exists_reads first
    exact Factors.exists_reads rest (.single reads)
  | negated sign first rest =>
    obtain ⟨formula, reads⟩ := Factor.exists_reads first
    exact Factors.exists_reads rest (.negated rfl reads)

theorem Terms.exists_reads (terms : Terms) {front : List Token} {first : Formula}
    (earlier : Reads .expression front first) :
    ∃ formula, Reads .expression (front ++ terms.tokens) formula := by
  cases terms with
  | done =>
    refine ⟨first, ?_⟩
    rwa [Terms.tokens, List.append_nil]
  | more sign term rest =>
    obtain ⟨formula, reads⟩ := Term.exists_reads term
    have signed : sign.token.kind = .operator sign.operator := by cases sign <;> rfl
    obtain ⟨whole, all⟩ := Terms.exists_reads rest (.sum earlier signed sign.adds reads)
    refine ⟨whole, ?_⟩
    rwa [List.append_assoc] at all

theorem Expression.exists_reads (expression : Expression) :
    ∃ formula, Reads .expression expression.tokens formula := by
  cases expression with
  | sum first rest =>
    obtain ⟨formula, reads⟩ := Term.exists_reads first
    exact Terms.exists_reads rest (.alone reads)

end

end Tree

namespace Formula

theorem Level.exists_reads {level : Level} {tokens : List Token}
    (demanded : Goal.DemandAll level.goals tokens) : ∃ formula, Reads level tokens formula := by
  cases level with
  | factor =>
    obtain ⟨factor, rfl⟩ := Goal.demandAll_one.mp demanded
    exact factor.exists_reads
  | term =>
    obtain ⟨term, rfl⟩ := Goal.demandAll_one.mp demanded
    exact term.exists_reads
  | expression =>
    obtain ⟨expression, rfl⟩ := Goal.demandAll_one.mp demanded
    exact expression.exists_reads
  | condition =>
    obtain ⟨_, _, rfl, ⟨left, rfl⟩, rest⟩ := demanded
    obtain ⟨relation, sign, right, rfl⟩ := Goal.demandAll_one.mp rest
    obtain ⟨first, earlier⟩ := left.exists_reads
    obtain ⟨second, last⟩ := right.exists_reads
    exact ⟨_, .comparison earlier rfl last⟩

end Formula

namespace Goal

variable {goals : List Goal} {next : Token} {tokens : List Token} {draft result : Draft}

theorem demandAll_of_passAll (passed : passAll? goals next draft = some result) :
    DemandAll goals [] := by
  induction goals generalizing draft with
  | nil => rfl
  | cons goal later ih =>
    simp only [passAll?] at passed
    split at passed
    next passedDraft verdict => exact ⟨[], [], rfl, demands_of_pass verdict, ih passed⟩
    next => cases passed

theorem demandAll_of_consume (consumed : consume? goals tokens next draft = some result) :
    DemandAll goals tokens := by
  unfold consume? at consumed
  split at consumed
  next remaining reached met =>
    have demanded := demandAll_advanceAll met (demandAll_of_passAll consumed)
    rwa [List.append_nil] at demanded
  next => cases consumed

end Goal

namespace Formula

/-- Whatever stretch of a text the goals of a level consume, it says a formula, and each formula that
it says has a value, which the code added to the draft computes in all memories with its cells. -/
theorem consumed_code_computes_value {level : Level} {source : String} {front tokens back : List Token}
    {next : Token} (text : (tokenize source).tokens = front ++ tokens ++ next :: back)
    {draft result : Draft} (consumed : Goal.consume? level.goals tokens next draft = some result) :
    ∃ code, result = draft.extend code [] ∧ (∃ formula, Reads level tokens formula) ∧
      ∀ formula, Reads level tokens formula → ∀ memory : Memory, memory.Holds code →
        ∃ value, formula.value? (draft.symbols.valueIn memory) = some value ∧
          Computes code memory value := by
  have plain : ∀ token ∈ tokens, token.IsPlain := by
    intro token member
    apply Cursor.isPlain_of_mem_tokens (Cursor.ofSource source.toList)
    exact text ▸ (by simp [member])
  obtain ⟨formula, reads⟩ := Level.exists_reads (Goal.demandAll_of_consume consumed)
  obtain ⟨code, codes, extended⟩ := reads.codes_of_consume plain consumed
  refine ⟨code, extended, ⟨formula, reads⟩, ?_⟩
  intro other otherReads memory holds
  obtain ⟨same, otherCodes, otherExtended⟩ := otherReads.codes_of_consume plain consumed
  obtain rfl : same = code := Draft.extend_inj (otherExtended.symm.trans extended)
  exact otherCodes.computes holds

theorem consumed_code_computes_value_negated_factor :
    ∃ front tokens back next,
      (tokenize "program p; var x: real; begin while x - -2 * x - 1 < 10 do $ end.").tokens =
        front ++ tokens ++ next :: back ∧ tokens.length = 10 ∧
      ∃ draft result, Goal.consume? Level.condition.goals tokens next draft = some result ∧
        ∃ code, result = draft.extend code [] ∧ (∃ formula, Reads .condition tokens formula) ∧
          ∀ formula, Reads .condition tokens formula → ∀ memory : Memory, memory.Holds code →
            ∃ value, formula.value? (draft.symbols.valueIn memory) = some value ∧
              Computes code memory value := by
  have text : (tokenize "program p; var x: real; begin while x - -2 * x - 1 < 10 do $ end.").tokens =
      [⟨.keyword .programWord, "program", 1⟩, ⟨.identifier, "p", 1⟩, ⟨.semicolon, ";", 1⟩,
        ⟨.keyword .varWord, "var", 1⟩, ⟨.identifier, "x", 1⟩, ⟨.colon, ":", 1⟩,
        ⟨.keyword .realWord, "real", 1⟩, ⟨.semicolon, ";", 1⟩, ⟨.keyword .beginWord, "begin", 1⟩,
        ⟨.keyword .whileWord, "while", 1⟩] ++
      [⟨.identifier, "x", 1⟩, ⟨.operator .subtract, "-", 1⟩, ⟨.operator .subtract, "-", 1⟩,
        ⟨.integerLiteral, "2", 1⟩, ⟨.operator .multiply, "*", 1⟩, ⟨.identifier, "x", 1⟩,
        ⟨.operator .subtract, "-", 1⟩, ⟨.integerLiteral, "1", 1⟩, ⟨.relation .less, "<", 1⟩,
        ⟨.integerLiteral, "10", 1⟩] ++
      ⟨.keyword .doWord, "do", 1⟩ :: [⟨.dollar, "$", 1⟩, ⟨.keyword .endWord, "end", 1⟩,
        ⟨.dot, ".", 1⟩, ⟨.endOfInput, "", 1⟩] := by
    decide +kernel
  let draft : Draft := { symbols := { symbols :=
    [{ name := "x", type := some .real, category := .var, scope := globalScope, address := 0 }] } }
  have done : (Goal.consume? Level.condition.goals
      [⟨.identifier, "x", 1⟩, ⟨.operator .subtract, "-", 1⟩, ⟨.operator .subtract, "-", 1⟩,
        ⟨.integerLiteral, "2", 1⟩, ⟨.operator .multiply, "*", 1⟩, ⟨.identifier, "x", 1⟩,
        ⟨.operator .subtract, "-", 1⟩, ⟨.integerLiteral, "1", 1⟩, ⟨.relation .less, "<", 1⟩,
        ⟨.integerLiteral, "10", 1⟩] ⟨.keyword .doWord, "do", 1⟩ draft).isSome = true := by
    decide +kernel
  obtain ⟨result, consumed⟩ := Option.isSome_iff_exists.mp done
  exact ⟨_, _, _, _, text, rfl, draft, result, consumed, consumed_code_computes_value text consumed⟩

end Formula

end Pascalet
