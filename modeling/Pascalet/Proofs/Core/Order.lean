import Pascalet.Proofs.Scoping.Privacy

namespace Pascalet

namespace SymbolTable

def cells (table : SymbolTable) : List Symbol :=
  table.symbols.filter (!·.isProcedure)

def procedures (table : SymbolTable) : List Symbol :=
  table.symbols.filter (·.isProcedure)

def parametersOf (table : SymbolTable) (name : String) : List Symbol :=
  table.symbols.filter fun symbol => symbol.category = .parameter ∧ symbol.scope = name

end SymbolTable

section Cells

variable {category : Category} {scope : String} {firstCell : Nat} {names : List (DataType × Token)}

theorem address_cellSymbols : (cellSymbols category scope firstCell names).map (·.address) =
    (List.range' firstCell names.length).map fun (cell : Nat) => (cell : Int) := by
  induction names generalizing firstCell with
  | nil => rfl
  | cons declared rest ih => exact congrArg ((firstCell : Int) :: ·) ih

theorem isProcedure_of_mem_cellSymbols (other : category ≠ .procedure) {symbol : Symbol}
    (found : symbol ∈ cellSymbols category scope firstCell names) : symbol.isProcedure = false := by
  rw [Symbol.isProcedure, (of_mem_cellSymbols found).1]
  exact beq_false_of_ne other

theorem procedures_cellSymbols (other : category ≠ .procedure) :
    (cellSymbols category scope firstCell names).filter (·.isProcedure) = [] := by
  apply List.filter_eq_nil_iff.mpr
  intro symbol found
  simp [isProcedure_of_mem_cellSymbols other found]

theorem cells_cellSymbols (other : category ≠ .procedure) :
    (cellSymbols category scope firstCell names).filter (!·.isProcedure) =
      cellSymbols category scope firstCell names := by
  apply List.filter_eq_self.mpr
  intro symbol found
  simp [isProcedure_of_mem_cellSymbols other found]

theorem counts_append {symbols : List Symbol} {cells : Nat}
    (counted : symbols.map (·.address) = (List.range cells).map fun (cell : Nat) => (cell : Int)) :
    (symbols ++ cellSymbols category scope cells names).map (·.address) =
      (List.range (cells + names.length)).map fun (cell : Nat) => (cell : Int) := by
  rw [List.map_append, counted, address_cellSymbols, ← List.map_append, List.range_eq_range',
    List.range_eq_range', ← List.range'_append_1, Nat.zero_add]

end Cells

namespace Context

def Counts (context : Context) : Prop :=
  context.table.cells.map (·.address) =
    (List.range context.cells).map fun (cell : Nat) => (cell : Int)

def ParametersOwned (context : Context) : Prop :=
  ∀ symbol ∈ context.table.symbols, symbol.category = .parameter →
    context.table.Has globalScope symbol.scope

end Context

namespace Tree

def procedures : List Item → List Procedure
  | [] => []
  | .vars _ :: rest => procedures rest
  | .procedure declared :: rest => declared :: procedures rest

def leading : List Item → List Procedure
  | .procedure declared :: rest => declared :: leading rest
  | _ => []

def Program.procedures (program : Program) : List Procedure :=
  Tree.procedures program.items

def procedureSymbols : (number : Nat) → List Procedure → List Symbol
  | _, [] => []
  | number, declared :: rest => declared.symbol number :: procedureSymbols (number + 1) rest

variable {items : List Item} {context after headed entered final : Context} {core : List Core.Item}
  {declared : Procedure} {resolved : Core.Procedure} {owner : String}

theorem procedures_of_resolveItems (done : resolveItems items context = .ok (core, final)) :
    final.table.procedures = context.table.procedures ++
      procedureSymbols context.parameterCounts.length (procedures items) := by
  induction items generalizing context core with
  | nil =>
    cases done
    exact (List.append_nil _).symm
  | cons item rest ih =>
    cases item with
    | vars vars =>
      obtain ⟨after, others, entering, resolving, _⟩ := of_resolveItems_variables done
      rw [ih resolving, Context.parameterCounts_of_declareCells entering, SymbolTable.procedures,
        Context.table_of_declareCells entering, List.filter_append, procedures_cellSymbols (by simp),
        List.append_nil]
      rfl
    | procedure declared =>
      obtain ⟨resolved, after, others, first, resolving, _⟩ := of_resolveItems_procedure done
      obtain ⟨headed, entered, steps⟩ := Procedure.of_resolve first
      have own : (declared.symbols context).filter (·.isProcedure) =
          [declared.symbol context.parameterCounts.length] := by
        rw [Procedure.symbols, List.filter_append, List.filter_cons, procedures_cellSymbols (by simp),
          procedures_cellSymbols (by simp)]
        rfl
      rw [ih resolving, steps.parameterCounts, SymbolTable.procedures, steps.table.2,
        List.filter_append, own, List.length_append, List.append_assoc]
      rfl

theorem Procedure.Resolved.addresses
    (steps : declared.Resolved context resolved after headed entered) (counts : context.Counts) :
    after.Counts := by
  have cells := steps.cells
  rw [steps.parameterCount, steps.localCount] at cells
  have kept : (declared.symbols context).filter (!·.isProcedure) =
      declared.ownSymbols context.cells := by
    rw [Procedure.symbols, List.filter_append, List.filter_cons, cells_cellSymbols (by simp),
      cells_cellSymbols (by simp)]
    rfl
  have own : after.table.cells = context.table.cells ++ declared.ownSymbols context.cells := by
    rw [SymbolTable.cells, steps.table.2, List.filter_append, kept]
    rfl
  rw [Context.Counts, own, cells, Procedure.ownSymbols, ← List.append_assoc]
  exact counts_append (counts_append counts)

theorem addresses_of_resolveItems (done : resolveItems items context = .ok (core, final))
    (counts : context.Counts) : final.Counts := by
  induction items generalizing context core with
  | nil =>
    cases done
    exact counts
  | cons item rest ih =>
    cases item with
    | vars vars =>
      obtain ⟨after, others, entering, resolving, _⟩ := of_resolveItems_variables done
      apply ih resolving
      have grown : after.table.cells = context.table.cells ++
          cellSymbols .var context.table.scope context.cells vars.typed.declared := by
        rw [SymbolTable.cells, Context.table_of_declareCells entering, List.filter_append,
          cells_cellSymbols (by simp)]
        rfl
      rw [Context.Counts, Context.cells_of_declareCells entering, grown]
      exact counts_append counts
    | procedure declared =>
      obtain ⟨resolved, after, others, first, resolving, _⟩ := of_resolveItems_procedure done
      obtain ⟨headed, entered, steps⟩ := Procedure.of_resolve first
      exact ih resolving (steps.addresses counts)

theorem parametersOf_append {symbols more : List Symbol} {current other : String}
    (foreign : ∀ symbol ∈ more, symbol.category = .parameter → symbol.scope ≠ owner) :
    SymbolTable.parametersOf ⟨symbols ++ more, current⟩ owner =
      SymbolTable.parametersOf ⟨symbols, other⟩ owner := by
  have none : more.filter (fun symbol => symbol.category = .parameter ∧ symbol.scope = owner) = [] := by
    apply List.filter_eq_nil_iff.mpr
    intro symbol found
    simpa using foreign symbol found
  rw [SymbolTable.parametersOf, SymbolTable.parametersOf, List.filter_append, none, List.append_nil]

theorem Procedure.scope_of_mem_symbols {symbol : Symbol} (found : symbol ∈ declared.symbols context)
    (parameter : symbol.category = .parameter) : symbol.scope = declared.name.lexeme := by
  rcases Procedure.of_mem_symbols found with rfl | own
  · cases parameter
  · exact (Procedure.of_mem_ownSymbols own).2.1

theorem Procedure.Resolved.parametersOwned
    (steps : declared.Resolved context resolved after headed entered)
    (owned : context.ParametersOwned) : after.ParametersOwned := by
  rw [Context.ParametersOwned, steps.table.2]
  intro symbol found parameter
  rcases List.mem_append.mp found with old | new
  · exact (owned symbol old parameter).append _ _
  · rw [Procedure.scope_of_mem_symbols new parameter]
    exact Procedure.has_symbol _ _

theorem parametersOf_of_resolveItems (done : resolveItems items context = .ok (core, final))
    (isGlobal : context.table.scope = globalScope) (taken : context.table.Has globalScope owner) :
    final.table.parametersOf owner = context.table.parametersOf owner := by
  induction items generalizing context core with
  | nil =>
    cases done
    rfl
  | cons item rest ih =>
    cases item with
    | vars vars =>
      obtain ⟨after, others, entering, resolving, _⟩ := of_resolveItems_variables done
      have table := Context.table_of_declareCells entering
      have kept : after.table.parametersOf owner = context.table.parametersOf owner := by
        rw [table]
        apply parametersOf_append
        intro symbol found parameter
        cases parameter.symm.trans (of_mem_cellSymbols found).1
      rw [← kept]
      apply ih resolving
      · rw [table]
        exact isGlobal
      · rw [table]
        exact taken.append _ _
    | procedure declared =>
      obtain ⟨resolved, after, others, first, resolving, _⟩ := of_resolveItems_procedure done
      obtain ⟨headed, entered, steps⟩ := Procedure.of_resolve first
      have different : declared.name.lexeme ≠ owner := by
        rintro rfl
        have fresh := SymbolTable.not_has_of_declaredHere steps.fresh
        rw [isGlobal] at fresh
        exact fresh taken
      have kept : after.table.parametersOf owner = context.table.parametersOf owner := by
        rw [steps.table.2]
        apply parametersOf_append
        intro symbol found parameter
        rw [Procedure.scope_of_mem_symbols found parameter]
        exact different
      rw [← kept]
      apply ih resolving
      · rw [steps.table.2]
      · rw [steps.table.2]
        exact taken.append _ _

theorem Procedure.Resolved.parametersOf
    (steps : declared.Resolved context resolved after headed entered)
    (isGlobal : context.table.scope = globalScope) (owned : context.ParametersOwned) :
    after.table.parametersOf declared.name.lexeme =
      cellSymbols .parameter declared.name.lexeme context.cells declared.parameterNames := by
  have fresh := SymbolTable.not_has_of_declaredHere steps.fresh
  rw [isGlobal] at fresh
  have none : context.table.symbols.filter (fun symbol =>
      symbol.category = .parameter ∧ symbol.scope = declared.name.lexeme) = [] := by
    apply List.filter_eq_nil_iff.mpr
    intro symbol found kept
    obtain ⟨parameter, scope⟩ := of_decide_eq_true kept
    exact fresh (scope ▸ owned symbol found parameter)
  rw [SymbolTable.parametersOf, steps.table.2, List.filter_append, none, Procedure.symbols,
    List.filter_append, List.filter_cons, List.filter_eq_self.mpr, List.filter_eq_nil_iff.mpr]
  · simp [Procedure.symbol]
  · intro symbol found kept
    cases (of_decide_eq_true kept).1.symm.trans (of_mem_cellSymbols found).1
  · intro symbol found
    obtain ⟨category, scope, _⟩ := of_mem_cellSymbols found
    exact decide_eq_true ⟨category, scope⟩

/-- Each procedure with its parameters, whose cells follow each other. -/
theorem parameters_of_resolveItems (done : resolveItems items context = .ok (core, final))
    (isGlobal : context.table.scope = globalScope) (owned : context.ParametersOwned) {number : Nat}
    (found : (Core.procedures core)[number]? = some resolved) :
    ∃ declared, (procedures items)[number]? = some declared ∧
      resolved.parameterCount = declared.parameterNames.length ∧
      final.table.parametersOf declared.name.lexeme =
        cellSymbols .parameter declared.name.lexeme resolved.firstCell declared.parameterNames := by
  induction items generalizing context core number with
  | nil =>
    cases done
    cases found
  | cons item rest ih =>
    cases item with
    | vars vars =>
      obtain ⟨after, others, entering, resolving, rfl⟩ := of_resolveItems_variables done
      have table := Context.table_of_declareCells entering
      apply ih resolving _ _ found
      · rw [table]
        exact isGlobal
      · rw [Context.ParametersOwned, table]
        intro symbol member parameter
        rcases List.mem_append.mp member with old | new
        · exact (owned symbol old parameter).append _ _
        · cases parameter.symm.trans (of_mem_cellSymbols new).1
    | procedure declared =>
      obtain ⟨own, after, others, first, resolving, rfl⟩ := of_resolveItems_procedure done
      obtain ⟨headed, entered, steps⟩ := Procedure.of_resolve first
      have globalAfter : after.table.scope = globalScope := by rw [steps.table.2]
      cases number with
      | zero =>
        obtain rfl : own = resolved := by simpa [Core.procedures] using found
        refine ⟨declared, rfl, steps.parameterCount, ?_⟩
        -- Its name is taken from here on, so no later procedure adds to its parameters.
        have taken : after.table.Has globalScope declared.name.lexeme := by
          rw [steps.table.2]
          exact Procedure.has_symbol _ _
        rw [parametersOf_of_resolveItems resolving globalAfter taken, steps.parametersOf isGlobal owned,
          steps.firstCell]
      | succ number => exact ih resolving globalAfter (steps.parametersOwned owned) found

theorem length_parameterCounts_of_resolveItems (done : resolveItems items context = .ok (core, final)) :
    final.parameterCounts.length = context.parameterCounts.length + (procedures items).length := by
  induction items generalizing context core with
  | nil =>
    cases done
    rfl
  | cons item rest ih =>
    cases item with
    | vars vars =>
      obtain ⟨after, others, entering, resolving, _⟩ := of_resolveItems_variables done
      rw [ih resolving, Context.parameterCounts_of_declareCells entering, procedures]
    | procedure declared =>
      obtain ⟨resolved, after, others, first, resolving, _⟩ := of_resolveItems_procedure done
      obtain ⟨headed, entered, steps⟩ := Procedure.of_resolve first
      rw [ih resolving, steps.parameterCounts, procedures, List.length_append, List.length_singleton,
        List.length_cons]
      omega

end Tree

end Pascalet
