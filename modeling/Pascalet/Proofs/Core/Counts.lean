import Pascalet.Code.Measure
import Pascalet.Proofs.Core.Symbols
import Pascalet.Proofs.Core.Valid

namespace Pascalet

def SymbolTable.count (category : Category) (table : SymbolTable) : Nat :=
  table.symbols.countP (·.category = category)

theorem countP_cellSymbols {category counted : Category} {scope : String} {firstCell : Nat}
    {names : List (DataType × Token)} :
    (cellSymbols category scope firstCell names).countP (·.category = counted) =
      if category = counted then names.length else 0 := by
  have length : (cellSymbols category scope firstCell names).length = names.length := by
    simpa using congrArg List.length (name_cellSymbols firstCell)
  split
  next same =>
    rw [← length, List.countP_eq_length]
    intro symbol found
    rw [(of_mem_cellSymbols found).1]
    exact decide_eq_true same
  next other =>
    rw [List.countP_eq_zero]
    intro symbol found
    rw [(of_mem_cellSymbols found).1]
    exact fun same => other (of_decide_eq_true same)

theorem Context.count_of_declareCells {context after : Context} {category : Category}
    {names : List (DataType × Token)} (counted : Category)
    (done : names.foldlM (declareCell category) context = .ok after) :
    after.table.count counted =
      context.table.count counted + if category = counted then names.length else 0 := by
  rw [SymbolTable.count, table_of_declareCells done, List.countP_append, countP_cellSymbols]
  rfl

namespace Core

def variableCount : List Item → Nat
  | [] => 0
  | .vars count :: rest => count + variableCount rest
  | .procedure declared :: rest => declared.localCount + variableCount rest

def parameterCount : List Item → Nat
  | [] => 0
  | .vars _ :: rest => parameterCount rest
  | .procedure declared :: rest => declared.parameterCount + parameterCount rest

end Core

namespace Tree

theorem Procedure.Resolved.counts {declared : Procedure} {context after headed entered : Context}
    {resolved : Core.Procedure} (steps : declared.Resolved context resolved after headed entered) :
    after.table.count .var = context.table.count .var + resolved.localCount ∧
      after.table.count .parameter = context.table.count .parameter + resolved.parameterCount := by
  have own (counted : Category) : after.table.count counted =
      context.table.count counted + (declared.symbols context).countP (·.category = counted) := by
    rw [SymbolTable.count, steps.table.2, List.countP_append]
    rfl
  simp only [own, Procedure.symbols, List.countP_append, List.countP_cons, countP_cellSymbols,
    Procedure.symbol, steps.localCount, steps.parameterCount]
  exact ⟨by simp, by simp⟩

theorem counts_of_resolveItems {items : List Item} {context final : Context}
    {core : List Core.Item} (done : resolveItems items context = .ok (core, final)) :
    final.table.count .var = context.table.count .var + Core.variableCount core ∧
      final.table.count .parameter = context.table.count .parameter + Core.parameterCount core ∧
      final.cells = context.cells + Core.variableCount core + Core.parameterCount core := by
  induction items generalizing context core with
  | nil =>
    cases done
    exact ⟨rfl, rfl, rfl⟩
  | cons item rest ih =>
    cases item with
    | vars vars =>
      obtain ⟨after, others, entering, resolving, rfl⟩ := of_resolveItems_variables done
      obtain ⟨laterVariables, laterParameters, cells⟩ := ih resolving
      have grownVariables := Context.count_of_declareCells .var entering
      have sameParameters := Context.count_of_declareCells .parameter entering
      have grown := Context.cells_of_declareCells entering
      simp only [Core.variableCount, Core.parameterCount, reduceIte, reduceCtorEq]
        at grownVariables sameParameters ⊢
      omega
    | procedure declared =>
      obtain ⟨resolved, after, others, first, resolving, rfl⟩ := of_resolveItems_procedure done
      obtain ⟨headed, entered, steps⟩ := Procedure.of_resolve first
      obtain ⟨laterVariables, laterParameters, cells⟩ := ih resolving
      have own := steps.counts
      have grown := steps.cells
      simp only [Core.variableCount, Core.parameterCount]
      omega

end Tree

def Core.reservationsIn (code : List Instruction) : List Argument :=
  (code.filter (·.opcode = .reserve)).map (·.argument)

namespace Core

theorem reservationsIn_append (front back : List Instruction) :
    reservationsIn (front ++ back) = reservationsIn front ++ reservationsIn back := by
  simp [reservationsIn]

theorem reservationsIn_of_allInner {code : List Instruction} (inner : AllInner code) :
    reservationsIn code = [] := by
  have none : ∀ instruction ∈ code, instruction.opcode ≠ .reserve := by
    intro instruction found same
    have absurd := inner instruction found
    rw [same] at absurd
    cases absurd
  simpa [reservationsIn] using none

theorem reservationsIn_reserveAll (count : Nat) :
    reservationsIn (reserveAll count) = List.replicate count (.integer 1) := by
  simp [reservationsIn, reserveAll]

theorem reservationsIn_procedure (entries : List Nat) (start : Nat) (procedure : Procedure) :
    reservationsIn (procedure.code entries start) =
      List.replicate procedure.localCount (.integer 1) := by
  have ending (count : Int) :
      reservationsIn [⟨.release, .integer count⟩, ⟨.ret, .absent⟩] = [] := rfl
  rw [Procedure.code, reservationsIn_append, reservationsIn_append, reservationsIn_append,
    reservationsIn_of_allInner (allInner_storeAll _ _), reservationsIn_reserveAll,
    reservationsIn_of_allInner (Command.allInner_code _ _ _), ending, List.append_nil,
    List.append_nil, List.nil_append]

theorem reservationsIn_itemsCode (entries : List Nat) (start : Nat) (items : List Item) :
    reservationsIn (itemsCode entries start items) =
      List.replicate (variableCount items) (.integer 1) := by
  induction items generalizing entries start with
  | nil => rfl
  | cons item rest ih =>
    cases item with
    | vars count =>
      rw [itemsCode, reservationsIn_append, reservationsIn_reserveAll, ih, variableCount,
        List.replicate_append_replicate]
    | procedure declared =>
      rw [itemsCode, reservationsIn_append, ih, variableCount, ← List.replicate_append_replicate,
        ← reservationsIn_procedure (entries ++ [start + 1]) (start + 1)]
      rfl

theorem Program.reservationsIn_code (start : Nat) (program : Program) :
    reservationsIn (program.code start) =
      List.replicate (variableCount program.items) (.integer 1) := by
  have first : reservationsIn [⟨.start, .absent⟩] = [] := rfl
  have last : reservationsIn [⟨.stop, .absent⟩] = [] := rfl
  rw [Program.code, reservationsIn_append, reservationsIn_append, ← List.singleton_append,
    reservationsIn_append, first, last, reservationsIn_itemsCode,
    reservationsIn_of_allInner (Command.allInner_code _ _ _), List.append_nil, List.append_nil,
    List.nil_append]

end Core

end Pascalet
