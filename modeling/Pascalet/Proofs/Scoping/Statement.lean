import Pascalet.Proofs.Scoping.Rules

namespace Pascalet

def Succeeds {α : Type} (result : Except CompileError α) : Prop :=
  ∃ value, result = .ok value

namespace Succeeds

variable {α β : Type} {result : Except CompileError α}

@[simp]
theorem ok (value : α) : Succeeds (.ok value) := ⟨value, rfl⟩

@[simp]
theorem not_error (error : CompileError) : ¬ Succeeds (.error error : Except CompileError α) := by
  rintro ⟨value, failed⟩
  cases failed

theorem map_iff {use : α → β} : Succeeds (result.map use) ↔ Succeeds result := by
  cases result <;> simp [Except.map]

theorem bind_iff {use : α → Except CompileError β} {condition : Prop}
    (second : ∀ value, Succeeds (use value) ↔ condition) :
    Succeeds (result >>= use) ↔ Succeeds result ∧ condition := by
  cases result with
  | error error => simp [bind, Except.bind]
  | ok value => simp [bind, Except.bind, second value]

theorem bind_ok_iff {use : α → β} :
    Succeeds (result >>= fun value => .ok (use value)) ↔ Succeeds result := by
  cases result <;> simp [bind, Except.bind]

theorem mapM_iff {step : α → Except CompileError β} (items : List α) :
    Succeeds (items.mapM step) ↔ ∀ item ∈ items, Succeeds (step item) := by
  induction items with
  | nil => simp [pure, Except.pure]
  | cons item rest ih =>
    rw [List.mapM_cons, List.forall_mem_cons, ← ih]
    exact bind_iff fun _ => bind_ok_iff

end Succeeds

def Symbol.meaning (symbol : Symbol) : Tree.Meaning :=
  if symbol.isProcedure then .procedure symbol.parameters.length else .cell

def SymbolTable.Allows (table : SymbolTable) (use : Tree.Use) : Prop :=
  ∃ symbol, table.lookup? use.name = some symbol ∧ use.Accepts symbol.meaning

namespace SymbolTable

variable {table : SymbolTable}

theorem succeeds_cell_iff (name : Token) :
    Succeeds (table.cell name) ↔ table.Allows (.cell name.lexeme) := by
  unfold cell denoted Allows Tree.Use.name
  cases table.lookup? name.lexeme with
  | none => simp [bind, Except.bind]
  | some symbol =>
    cases procedure : symbol.isProcedure <;>
      simp [bind, Except.bind, Symbol.meaning, procedure, Tree.Use.Accepts]

theorem succeeds_cells_iff (names : List Token) :
    Succeeds (names.mapM table.cell) ↔ ∀ use ∈ Tree.cellUses names, table.Allows use := by
  simp [Succeeds.mapM_iff, succeeds_cell_iff, Tree.cellUses]

theorem succeeds_call_iff (name : Token) (arguments : List Token) :
    Succeeds (table.call name arguments) ↔
      table.Allows (.call name.lexeme arguments.length) ∧
        ∀ use ∈ Tree.cellUses arguments, table.Allows use := by
  rw [← succeeds_cells_iff]
  unfold call denoted Allows Tree.Use.name
  cases table.lookup? name.lexeme with
  | none => simp [bind, Except.bind]
  | some symbol =>
    cases procedure : symbol.isProcedure with
    | false => simp [bind, Except.bind, Symbol.meaning, procedure, Tree.Use.Accepts]
    | true =>
      by_cases counted : arguments.length = symbol.parameters.length
      · have accepted : (Tree.Use.call name.lexeme arguments.length).Accepts symbol.meaning := by
          simp [Symbol.meaning, procedure, Tree.Use.Accepts, counted]
        have allowed : ∃ found, some symbol = some found ∧
            (Tree.Use.call name.lexeme arguments.length).Accepts found.meaning :=
          ⟨symbol, rfl, accepted⟩
        rw [and_iff_right allowed]
        have same : ¬ arguments.length ≠ symbol.parameters.length := not_not_intro counted
        simp only [bind, Except.bind, procedure, same, ↓reduceIte]
        exact Succeeds.bind_ok_iff
      · have refused : ¬ (Tree.Use.call name.lexeme arguments.length).Accepts symbol.meaning := by
          simp [Symbol.meaning, procedure, Tree.Use.Accepts]
          omega
        simp [bind, Except.bind, procedure, counted, refused]

end SymbolTable

namespace Tree

variable {table : SymbolTable}

mutual

theorem Factor.succeeds_iff (factor : Factor) :
    Succeeds (factor.resolve table) ↔ ∀ use ∈ factor.uses, table.Allows use := by
  cases factor with
  | name name =>
    rw [Factor.resolve, Succeeds.map_iff, SymbolTable.succeeds_cell_iff, Factor.uses,
      List.forall_mem_singleton]
    rfl
  | literal literal => simp [Factor.resolve, Factor.uses]
  | group left inner right => exact inner.succeeds_iff

theorem Factors.succeeds_iff (factors : Factors) (left : Core.Expression) :
    Succeeds (factors.resolve table left) ↔ ∀ use ∈ factors.uses, table.Allows use := by
  cases factors with
  | done => simp [Factors.resolve, Factors.uses]
  | more sign factor rest =>
    rw [Factors.resolve, Succeeds.bind_iff fun right => rest.succeeds_iff _, factor.succeeds_iff,
      Factors.uses, List.forall_mem_append]

theorem Term.succeeds_iff (term : Term) :
    Succeeds (term.resolve table) ↔ ∀ use ∈ term.uses, table.Allows use := by
  cases term with
  | plain first rest =>
    rw [Term.resolve, Succeeds.bind_iff fun left => rest.succeeds_iff _, first.succeeds_iff,
      Term.uses, List.forall_mem_append]
  | negated sign first rest =>
    rw [Term.resolve, Succeeds.bind_iff fun left => rest.succeeds_iff _, first.succeeds_iff,
      Term.uses, List.forall_mem_append]

theorem Terms.succeeds_iff (terms : Terms) (left : Core.Expression) :
    Succeeds (terms.resolve table left) ↔ ∀ use ∈ terms.uses, table.Allows use := by
  cases terms with
  | done => simp [Terms.resolve, Terms.uses]
  | more sign term rest =>
    rw [Terms.resolve, Succeeds.bind_iff fun right => rest.succeeds_iff _, term.succeeds_iff,
      Terms.uses, List.forall_mem_append]

theorem Expression.succeeds_iff (expression : Expression) :
    Succeeds (expression.resolve table) ↔ ∀ use ∈ expression.uses, table.Allows use := by
  cases expression with
  | sum first rest =>
    rw [Expression.resolve, Succeeds.bind_iff fun left => rest.succeeds_iff _, first.succeeds_iff,
      Expression.uses, List.forall_mem_append]

end

theorem Condition.succeeds_iff (condition : Condition) :
    Succeeds (condition.resolve table) ↔ ∀ use ∈ condition.uses, table.Allows use := by
  rw [Condition.resolve, Succeeds.bind_iff fun left => Succeeds.bind_ok_iff,
    condition.left.succeeds_iff, condition.right.succeeds_iff, Condition.uses,
    List.forall_mem_append]

mutual

theorem Statement.succeeds_iff (statement : Statement) :
    Succeeds (statement.resolve table) ↔ ∀ use ∈ statement.uses, table.Allows use := by
  cases statement with
  | read word targets =>
    rw [Statement.resolve, Succeeds.bind_ok_iff, SymbolTable.succeeds_cells_iff, Statement.uses]
  | write word left first rest right =>
    rw [Statement.resolve, Succeeds.bind_iff fun value => Succeeds.bind_ok_iff, first.succeeds_iff,
      Succeeds.mapM_iff, Statement.uses, List.forall_mem_append]
    simp only [Expression.succeeds_iff, List.forall_mem_flatMap]
  | choose word condition thenWord body close =>
    rw [Statement.resolve, Succeeds.bind_iff fun tested => Succeeds.bind_ok_iff,
      condition.succeeds_iff, body.succeeds_iff, Statement.uses, List.forall_mem_append]
  | chooseElse word condition thenWord body elseWord other close =>
    rw [Statement.resolve, Succeeds.bind_iff fun tested => Succeeds.bind_iff fun chosen =>
      Succeeds.bind_ok_iff, condition.succeeds_iff, body.succeeds_iff, other.succeeds_iff,
      Statement.uses, List.forall_mem_append, List.forall_mem_append]
  | loop word condition doWord body close =>
    rw [Statement.resolve, Succeeds.bind_iff fun tested => Succeeds.bind_ok_iff,
      condition.succeeds_iff, body.succeeds_iff, Statement.uses, List.forall_mem_append]
  | assign target sign value =>
    rw [Statement.resolve, Succeeds.bind_iff fun address => Succeeds.bind_ok_iff,
      SymbolTable.succeeds_cell_iff, value.succeeds_iff, Statement.uses, List.forall_mem_cons]
    rfl
  | call name arguments =>
    rw [Statement.resolve, SymbolTable.succeeds_call_iff, Statement.uses, List.forall_mem_cons]
    rfl

theorem Statements.succeeds_iff (statements : Statements) :
    Succeeds (statements.resolve table) ↔ ∀ use ∈ statements.uses, table.Allows use := by
  cases statements with
  | empty => simp [Statements.resolve, Statements.uses]
  | last statement => exact statement.succeeds_iff
  | skip semicolon rest => exact rest.succeeds_iff
  | more statement semicolon rest =>
    rw [Statements.resolve, Succeeds.bind_iff fun first => Succeeds.bind_ok_iff,
      statement.succeeds_iff, rest.succeeds_iff, Statements.uses, List.forall_mem_append]

end

end Tree

end Pascalet
