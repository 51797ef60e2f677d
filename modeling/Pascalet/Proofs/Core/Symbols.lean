import Pascalet.Proofs.Core.Context

namespace Pascalet

def cellSymbols (category : Category) (scope : String) :
    (firstCell : Nat) → List (DataType × Token) → List Symbol
  | _, [] => []
  | firstCell, (type, name) :: rest =>
    { name := name.lexeme, type := some type, category, scope, address := firstCell } ::
      cellSymbols category scope (firstCell + 1) rest

variable {category : Category} {scope : String} {names : List (DataType × Token)}

theorem name_cellSymbols (firstCell : Nat) :
    (cellSymbols category scope firstCell names).map (·.name) = names.map (·.2.lexeme) := by
  induction names generalizing firstCell with
  | nil => rfl
  | cons declared rest ih => exact congrArg (declared.2.lexeme :: ·) (ih (firstCell + 1))

theorem of_mem_cellSymbols {firstCell : Nat} {symbol : Symbol}
    (found : symbol ∈ cellSymbols category scope firstCell names) :
    symbol.category = category ∧ symbol.scope = scope ∧
      ∃ cell : Nat, symbol.address = cell ∧ firstCell ≤ cell ∧ cell < firstCell + names.length := by
  induction names generalizing firstCell with
  | nil => cases found
  | cons declared rest ih =>
    rcases List.mem_cons.mp found with rfl | later
    · exact ⟨rfl, rfl, firstCell, rfl, Nat.le_refl _, by simp⟩
    · obtain ⟨sameCategory, sameScope, cell, address, above, below⟩ := ih later
      rw [List.length_cons]
      exact ⟨sameCategory, sameScope, cell, address, by omega, by omega⟩

theorem Context.table_of_declareCells {context after : Context}
    (done : names.foldlM (declareCell category) context = .ok after) :
    after.table =
      ⟨context.table.symbols ++ cellSymbols category context.table.scope context.cells names,
        context.table.scope⟩ := by
  induction names generalizing context with
  | nil =>
    cases done
    simp [cellSymbols]
  | cons declared rest ih =>
    rw [List.foldlM_cons] at done
    cases first : context.declareCell category declared with
    | error error => simp [first, bind, Except.bind] at done
    | ok between =>
      rw [first] at done
      obtain ⟨_, rfl⟩ := of_declareCell first
      rw [ih done]
      simp [enterCell, SymbolTable.declare, cellSymbols]

namespace Tree

def Procedure.symbol (declared : Procedure) (number : Nat) : Symbol :=
  { name := declared.name.lexeme, type := none, category := .procedure, scope := globalScope,
    address := number, parameters := declared.parameterNames.map (·.1) }

def Procedure.symbols (declared : Procedure) (context : Context) : List Symbol :=
  cellSymbols .parameter declared.name.lexeme context.cells declared.parameterNames ++
    declared.symbol context.parameterCounts.length ::
    cellSymbols .var declared.name.lexeme (context.cells + declared.parameterNames.length)
      declared.localNames

def Procedure.ownSymbols (declared : Procedure) (firstCell : Nat) : List Symbol :=
  cellSymbols .parameter declared.name.lexeme firstCell declared.parameterNames ++
    cellSymbols .var declared.name.lexeme (firstCell + declared.parameterNames.length)
      declared.localNames

theorem Procedure.of_mem_ownSymbols {declared : Procedure} {firstCell : Nat} {symbol : Symbol}
    (found : symbol ∈ declared.ownSymbols firstCell) :
    symbol.isProcedure = false ∧ symbol.scope = declared.name.lexeme ∧
      ∃ cell : Nat, symbol.address = cell ∧ firstCell ≤ cell ∧
        cell < firstCell + declared.parameterNames.length + declared.localNames.length := by
  rcases List.mem_append.mp found with parameter | inner
  · obtain ⟨category, scope, cell, address, above, below⟩ := of_mem_cellSymbols parameter
    exact ⟨by simp [Symbol.isProcedure, category], scope, cell, address, above, by omega⟩
  · obtain ⟨category, scope, cell, address, above, below⟩ := of_mem_cellSymbols inner
    exact ⟨by simp [Symbol.isProcedure, category], scope, cell, address, by omega, below⟩

theorem Procedure.of_mem_symbols {declared : Procedure} {context : Context} {symbol : Symbol}
    (found : symbol ∈ declared.symbols context) :
    symbol = declared.symbol context.parameterCounts.length ∨
      symbol ∈ declared.ownSymbols context.cells := by
  rcases List.mem_append.mp found with parameter | rest
  · exact .inr (List.mem_append_left _ parameter)
  · rcases List.mem_cons.mp rest with same | inner
    · exact .inl same
    · exact .inr (List.mem_append_right _ inner)

theorem Procedure.Resolved.table {declared : Procedure} {context after headed entered : Context}
    {resolved : Core.Procedure} (steps : declared.Resolved context resolved after headed entered) :
    entered.table = ⟨context.table.symbols ++ declared.symbols context, declared.name.lexeme⟩ ∧
      after.table = ⟨context.table.symbols ++ declared.symbols context, globalScope⟩ := by
  have ofHeading := Context.table_of_declareCells steps.heading
  have cells := Context.cells_of_declareCells steps.heading
  have counts := Context.parameterCounts_of_declareCells steps.heading
  have ofEntering := Context.table_of_declareCells steps.entering
  simp only [Context.declareProcedure, SymbolTable.declare, SymbolTable.enterScope]
    at ofEntering ofHeading cells counts
  have inside : entered.table =
      ⟨context.table.symbols ++ declared.symbols context, declared.name.lexeme⟩ := by
    rw [ofEntering, ofHeading, cells, counts]
    simp [symbols, symbol, Terminal.token]
  refine ⟨inside, ?_⟩
  rw [steps.leaving, Context.closeProcedure, inside]
  rfl

theorem symbols_of_resolveItems {items : List Item} {context final : Context}
    {core : List Core.Item} (done : resolveItems items context = .ok (core, final)) :
    ∃ more, final.table.symbols = context.table.symbols ++ more := by
  induction items generalizing context core with
  | nil =>
    cases done
    exact ⟨[], (List.append_nil _).symm⟩
  | cons item rest ih =>
    cases item with
    | vars vars =>
      obtain ⟨after, others, entering, resolving, _⟩ := of_resolveItems_variables done
      obtain ⟨more, grown⟩ := ih resolving
      rw [Context.table_of_declareCells entering, List.append_assoc] at grown
      exact ⟨_, grown⟩
    | procedure declared =>
      obtain ⟨resolved, after, others, first, resolving, _⟩ := of_resolveItems_procedure done
      obtain ⟨headed, entered, steps⟩ := Procedure.of_resolve first
      obtain ⟨more, grown⟩ := ih resolving
      rw [steps.table.2, List.append_assoc] at grown
      exact ⟨_, grown⟩

end Tree

end Pascalet
