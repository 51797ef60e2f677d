import Pascalet.Proofs.Calls.Brackets
import Pascalet.Proofs.Calls.Names
import Pascalet.Proofs.Calls.Passing

namespace Pascalet

theorem forall₂_through {α β γ : Type} {first : α → β → Prop} {second : β → γ → Prop}
    {whole : α → γ → Prop} {as : List α} {bs : List β} {cs : List γ}
    (front : List.Forall₂ first as bs) (back : List.Forall₂ second bs cs)
    (each : ∀ a b c, first a b → second b c → whole a c) : List.Forall₂ whole as cs := by
  induction front generalizing cs with
  | nil =>
    cases back
    exact .nil
  | cons here _ ih =>
    cases back with
    | cons there rest => exact .cons (each _ _ _ here there) (ih rest)

theorem Core.ItemsValid.fits {cells : Nat} {parameterCounts : List Nat} {items : List Core.Item}
    (valid : Core.ItemsValid cells parameterCounts items) {called : Core.Procedure}
    (member : called ∈ Core.procedures items) : called.firstCell + called.parameterCount ≤ cells := by
  induction items generalizing parameterCounts with
  | nil => cases member
  | cons item rest ih =>
    cases item with
    | vars count => exact ih valid member
    | procedure declared =>
      rcases List.mem_cons.mp member with rfl | later
      · exact valid.1.parameters
      · exact ih valid.2 later

theorem SymbolTable.exists_symbols {table : SymbolTable} {names : List Token} {cells : List Nat}
    (named : List.Forall₂ table.NamesCell names cells) :
    ∃ symbols : List Symbol, cells = symbols.map (·.address.toNat) ∧
      (∀ symbol ∈ symbols, symbol ∈ table.symbols ∧ symbol.isProcedure = false) ∧
      List.Forall₂ (fun (name : Token) (symbol : Symbol) =>
        table.lookup? name.lexeme = some symbol ∧ symbol.isProcedure = false) names symbols := by
  induction named with
  | nil => exact ⟨[], rfl, by simp, .nil⟩
  | cons first _ ih =>
    obtain ⟨symbol, lookup, isCell, rfl⟩ := first
    obtain ⟨symbols, rfl, known, others⟩ := ih
    exact ⟨symbol :: symbols, rfl,
      List.forall_mem_cons.mpr ⟨⟨mem_of_lookup? lookup, isCell⟩, known⟩,
      .cons ⟨lookup, isCell⟩ others⟩

/-- What a call makes of the memory: the parameters have the values of the arguments, and every other
cell has the value that it had. -/
structure Memory.Passes (before after : Memory) (parameters arguments : List Symbol) : Prop where
  size : after.size = before.size
  values : List.Forall₂ (fun (parameter argument : Symbol) =>
    after.get parameter.address.toNat = before.get argument.address.toNat) parameters arguments
  others : ∀ cell : Nat, (∀ parameter ∈ parameters, parameter.address ≠ cell) →
    after.get cell = before.get cell

theorem Memory.passes_of_positions {before after : Memory} {parameters arguments : List Symbol}
    {firstCell : Nat} (size : after.size = before.size)
    (cells : parameters.map (·.address) =
      (List.range' firstCell arguments.length).map fun (cell : Nat) => (cell : Int))
    (own : ∀ (position address : Nat),
      (arguments.map (·.address.toNat))[position]? = some address →
        after.get (firstCell + position) = before.get address)
    (others : ∀ cell, ¬ (firstCell ≤ cell ∧ cell < firstCell + arguments.length) →
      after.get cell = before.get cell) :
    before.Passes after parameters arguments := by
  have length : parameters.length = arguments.length := by simpa using congrArg List.length cells
  refine ⟨size, ?_, ?_⟩
  · rw [List.forall₂_iff_get]
    refine ⟨length, fun position inside insideToo => ?_⟩
    have address := congrArg (·[position]?) cells
    simp only [List.getElem?_map, List.getElem?_eq_getElem inside, Option.map_some,
      List.getElem?_range' insideToo, Option.some.injEq] at address
    rw [List.get_eq_getElem, List.get_eq_getElem, address, Nat.one_mul, Int.toNat_natCast]
    apply own
    rw [List.getElem?_map, List.getElem?_eq_getElem insideToo, Option.map_some]
  · intro cell foreign
    apply others
    intro inside
    have found : (cell : Int) ∈ parameters.map (·.address) := by
      rw [cells]
      exact List.mem_map_of_mem (List.mem_range'_1.mpr inside)
    obtain ⟨parameter, member, same⟩ := List.mem_map.mp found
    exact foreign parameter member same

namespace Program

def symbol? (program : Program) (scope name : String) : Option Symbol :=
  (program.symbols.enterScope scope).lookup? name

/-- A call in the text, whose code begins at an index. Machines run through it up to the end of the
stores that the procedure begins with, and nothing changes but the cells of the parameters and the
return stack. -/
structure PassesByValue (program : Program) (call : Tree.Call) (index : Nat) (callee : Symbol)
    (arguments : List Symbol) : Prop where
  found : program.symbol? call.scope call.procedure.lexeme = some callee
  isProcedure : callee.isProcedure = true
  named : List.Forall₂ (fun (name : Token) (symbol : Symbol) =>
    program.symbol? call.scope name.lexeme = some symbol ∧ symbol.isProcedure = false)
    call.arguments arguments
  counted : arguments.length = callee.parameters.length
  site : program.CallsAt index callee
  runs : ∀ machine : Machine, machine.code = program.code → machine.pc = index →
    program.code.nextAddress ≤ machine.memory.size →
    ∃ memory, machine.stepTimes (2 * callee.parameters.length + 2) = .ok () { machine with
        pc := callee.address.toNat + callee.parameters.length
        steps := machine.steps + (2 * callee.parameters.length + 2)
        returns := (index + callee.parameters.length + 2) :: machine.returns
        memory } ∧
      machine.memory.Passes memory (program.symbols.parametersOf callee.name) arguments

variable {source : String} {program : Program} {tree : Tree.Program} {core : Core.Program}
  {context : Context}

namespace Assembled

theorem symbol?_of_lookup? (assembled : program.Assembled tree core context) {scope name : String}
    {symbol : Symbol} (found : (context.table.enterScope scope).lookup? name = some symbol) :
    program.symbol? scope name = some (symbol.place (core.entries 0)) := by
  have placed := @SymbolTable.lookup?_place (context.table.enterScope scope) (core.entries 0) name
  rw [found] at placed
  rw [symbol?, assembled.assembled]
  exact placed

theorem getElem?_procedures (assembled : program.Assembled tree core context) {symbol : Symbol}
    (member : symbol ∈ context.table.symbols) (procedure : symbol.isProcedure = true) :
    program.symbols.procedures[symbol.address.toNat]? = some (symbol.place (core.entries 0)) := by
  have declared := Tree.procedures_of_resolveItems (Tree.Program.of_resolve assembled.resolved).1
  have known : symbol ∈ Tree.procedureSymbols 0 tree.procedures := by
    have own : symbol ∈ context.table.procedures := List.mem_filter.mpr ⟨member, procedure⟩
    rw [declared] at own
    exact own
  obtain ⟨number, found⟩ := List.getElem?_of_mem known
  have own := found
  rw [Tree.getElem?_procedureSymbols] at own
  obtain ⟨written, _, rfl⟩ := Option.map_eq_some_iff.mp own
  have address : (written.symbol (0 + number)).address.toNat = number := by
    simp [Tree.Procedure.symbol]
  rw [assembled.procedures, List.getElem?_map, address, found]
  rfl

theorem fits (assembled : program.Assembled tree core context) :
    context.Fits ∧ context.parameterCounts = core.procedures.map (·.parameterCount) :=
  Tree.fits_of_resolveItems (Tree.Program.of_resolve assembled.resolved).1 Context.fits_empty

theorem exists_called (assembled : program.Assembled tree core context) {symbol : Symbol}
    (member : symbol ∈ context.table.symbols) (procedure : symbol.isProcedure = true) :
    ∃ called, core.procedures[symbol.address.toNat]? = some called ∧
      called.parameterCount = symbol.parameters.length := by
  obtain ⟨fits, counts⟩ := assembled.fits
  obtain ⟨number, address, counted, _⟩ := fits symbol member
  have count := counted procedure
  rw [counts, List.getElem?_map] at count
  rw [address, Int.toNat_natCast]
  exact Option.map_eq_some_iff.mp count

theorem address_lt (assembled : program.Assembled tree core context) {symbol : Symbol}
    (member : symbol ∈ context.table.symbols) (isCell : symbol.isProcedure = false) :
    symbol.address.toNat < context.cells := by
  obtain ⟨cell, address, _, inside⟩ := assembled.fits.1 symbol member
  rw [address, Int.toNat_natCast]
  exact inside isCell

theorem entry_le (assembled : program.Assembled tree core context) {number : Nat}
    {called : Core.Procedure} (foundCalled : core.procedures[number]? = some called) :
    (core.entries 0).getD number 0 ≤ program.code.size := by
  obtain ⟨entry, foundEntry, _⟩ := assembled.executable.linked number called foundCalled
  rw [List.getD_eq_getElem?_getD, foundEntry, Option.getD_some]
  exact Nat.le_of_lt (assembled.regions.entered _ (List.mem_of_getElem? foundEntry)).1

theorem runs_call (assembled : program.Assembled tree core context) {machine : Machine} {number : Nat}
    {called : Core.Procedure} {symbol : Symbol} {arguments : List Symbol}
    (foundCalled : core.procedures[number]? = some called)
    (declared : program.symbols.procedures[number]? = some symbol)
    (count : arguments.length = called.parameterCount)
    (inside : ∀ argument ∈ arguments, argument.address.toNat < context.cells)
    (sameCode : machine.code = program.code) (enough : context.cells ≤ machine.memory.size)
    (has : program.code.HasCall (core.entries 0) ⟨number, arguments.map (·.address.toNat)⟩
      machine.pc) :
    ∃ memory, machine.stepTimes (2 * symbol.parameters.length + 2) = .ok () { machine with
        pc := symbol.address.toNat + symbol.parameters.length
        steps := machine.steps + (2 * symbol.parameters.length + 2)
        returns := (machine.pc + symbol.parameters.length + 2) :: machine.returns
        memory } ∧
      machine.memory.Passes memory (program.symbols.parametersOf symbol.name) arguments := by
  obtain ⟨_, same, entry, address, entryEq, length, cells, stores⟩ := assembled.exists_symbol foundCalled
  cases declared.symm.trans same
  have entered : entry ≤ program.code.size := entryEq ▸ assembled.entry_le foundCalled
  have fits := assembled.executable.valid.items.fits (List.mem_of_getElem? foundCalled)
  rw [← count] at length cells stores fits
  have addresses : (arguments.map (·.address.toNat)).length = arguments.length := List.length_map _
  rw [← sameCode] at entered stores
  rw [← addresses] at stores fits
  have insideMemory : ∀ cell ∈ arguments.map (·.address.toNat), cell < machine.memory.size := by
    intro cell member
    obtain ⟨argument, known, rfl⟩ := List.mem_map.mp member
    exact Nat.lt_of_lt_of_le (inside argument known) enough
  rw [Buffer.HasCall, Core.Command.code, entryEq, ← sameCode] at has
  obtain ⟨memory, stepped, size, own, others⟩ :=
    Machine.stepTimes_call has entered stores insideMemory (Nat.le_trans fits enough)
  rw [addresses] at stepped others
  refine ⟨memory, ?_, Memory.passes_of_positions size cells own others⟩
  rw [length, address, Int.toNat_natCast]
  exact stepped

theorem passesByValue (assembled : program.Assembled tree core context) {written : Tree.Call}
    {call : Core.Call} {index : Nat} (names : context.NamesCall written call)
    (has : program.code.HasCall (core.entries 0) call index) :
    ∃ callee arguments, program.PassesByValue written index callee arguments := by
  obtain ⟨_, ⟨symbol, lookup, procedure, number, counted⟩, named⟩ := names
  obtain ⟨arguments, cells, known, found⟩ := SymbolTable.exists_symbols named
  have member : symbol ∈ (context.table.enterScope written.scope).symbols :=
    SymbolTable.mem_of_lookup? lookup
  obtain ⟨called, foundCalled, count⟩ := assembled.exists_called member procedure
  have declared := assembled.getElem?_procedures member procedure
  have length : arguments.length = symbol.parameters.length := found.length_eq.symm.trans counted
  rw [Buffer.HasCall, ← number, cells] at has
  have inside : ∀ argument ∈ arguments, argument.address.toNat < context.cells :=
    fun argument passed => assembled.address_lt (known argument passed).1 (known argument passed).2
  have size : program.code.nextAddress = context.cells := by
    rw [assembled.assembled]
    rfl
  refine ⟨symbol.place (core.entries 0), arguments, ?_, ?_, ?_, ?_, ?_, ?_⟩
  · exact assembled.symbol?_of_lookup? lookup
  · rw [Symbol.isProcedure_place]
    exact procedure
  · refine found.imp fun name argument known => ⟨?_, known.2⟩
    rw [assembled.symbol?_of_lookup? known.1, Symbol.place_of_not_procedure known.2]
  · rw [Symbol.parameters_place]
    exact length
  · apply assembled.callsAt_of_has foundCalled _ declared has
    rw [List.length_map, length, count]
  · rintro machine sameCode rfl enough
    have run := assembled.runs_call foundCalled declared (length.trans count.symm) inside sameCode
      (by omega) has
    exact run

end Assembled

/-- Every call of a compiled program passes its arguments by value, wherever it stands. -/
theorem calls_pass_by_value (compiled : compile source = .ok program) :
    (∃ tree : Tree.Program, tree.Spells (tokenize source).tokens) ∧
      ∀ tree : Tree.Program, tree.Spells (tokenize source).tokens →
        List.Forall₂ (fun call index => ∃ callee arguments,
          program.PassesByValue call index callee arguments) tree.calls program.code.callSites := by
  refine ⟨(exists_spells_of_compile compiled).2, fun tree spells => ?_⟩
  obtain ⟨core, context, assembled⟩ := exists_assembled compiled spells
  have named := Tree.Program.calls_of_resolve assembled.resolved
  have placed := assembled.executable.calls
  exact forall₂_through named placed fun _ _ _ => assembled.passesByValue

theorem calls_pass_by_value_swapped :
    ∃ (program : Program) (tree : Tree.Program),
      compile ("program p; var a, b: real; procedure q(x, y: real); begin if x < y then q(y, x) $ end; " ++
        "begin q(a, b); q(b, b) end.") = .ok program ∧
      tree.Spells (tokenize
        ("program p; var a, b: real; procedure q(x, y: real); begin if x < y then q(y, x) $ end; " ++
          "begin q(a, b); q(b, b) end.")).tokens ∧
      program.code.callSites = [10, 17, 21] ∧
      List.Forall₂ (fun call index => ∃ callee arguments,
        program.PassesByValue call index callee arguments) tree.calls program.code.callSites := by
  have checked : (compile
      ("program p; var a, b: real; procedure q(x, y: real); begin if x < y then q(y, x) $ end; " ++
        "begin q(a, b); q(b, b) end.")).toOption.any
        (fun program => program.code.callSites = [10, 17, 21]) = true := by
    decide +kernel
  obtain ⟨program, compiled, sites⟩ := exists_of_any checked
  obtain ⟨⟨tree, spells⟩, passing⟩ := calls_pass_by_value compiled
  exact ⟨program, tree, compiled, spells, of_decide_eq_true sites, passing tree spells⟩

end Program

end Pascalet
