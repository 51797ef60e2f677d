import Pascalet.Proofs.Calls.Placement
import Pascalet.Proofs.Code.Memory
import Pascalet.Proofs.Machine.Size

namespace Pascalet.Program

variable {source : String} {program : Program} {tree : Tree.Program}

theorem addresses_of_compile (compiled : compile source = .ok program) :
    ∃ cells : Nat, program.code.nextAddress = cells ∧ program.code.Sound cells ∧
      program.symbols.cells.map (·.address) =
        (List.range cells).map fun (cell : Nat) => (cell : Int) := by
  obtain ⟨tree, spells⟩ := (exists_spells_of_compile compiled).2
  obtain ⟨core, context, resolved, rfl, executable⟩ := exists_assembled compiled spells
  have counts := Tree.addresses_of_resolveItems (Tree.Program.of_resolve resolved).1 rfl
  refine ⟨context.cells, rfl, executable.sound, ?_⟩
  rw [← counts]
  exact congrArg (List.map (·.address)) SymbolTable.cells_place

theorem exists_symbol_of_hasAddress (compiled : compile source = .ok program) {instruction : Instruction}
    (found : instruction ∈ program.code.instructions)
    (addressed : instruction.opcode.hasAddress = true) :
    ∃ symbol ∈ program.symbols.cells, instruction.argument = .integer symbol.address := by
  obtain ⟨cells, _, sound, addresses⟩ := addresses_of_compile compiled
  obtain ⟨opcode, argument⟩ := instruction
  obtain ⟨address, rfl, inside⟩ := (sound _ found).exists_address addressed
  have member : (address : Int) ∈ program.symbols.cells.map (·.address) := by
    rw [addresses]
    exact List.mem_map_of_mem (List.mem_range.mpr inside)
  obtain ⟨symbol, symbolFound, same⟩ := List.mem_map.mp member
  exact ⟨symbol, symbolFound, congrArg Argument.integer same.symm⟩

theorem reservations_of_compile (compiled : compile source = .ok program) :
    program.code.reservations = List.replicate (program.symbols.count .var) (.integer 1) := by
  obtain ⟨tree, spells⟩ := (exists_spells_of_compile compiled).2
  obtain ⟨core, context, resolved, rfl, executable⟩ := exists_assembled compiled spells
  have counted := (Tree.counts_of_resolveItems (Tree.Program.of_resolve resolved).1).1
  have symbols : (core.assemble tree.name.lexeme context).symbols.count .var =
      context.table.count .var := count_place context.table (core.entries 0) .var
  rw [symbols, counted, show SymbolTable.count .var {} = 0 from rfl, Nat.zero_add]
  exact core.reservationsIn_code 0

/-- The layout of a compiled program. Its cells are numbered in the order of declaration, code uses no
others and sets one aside for each variable, and each procedure begins behind the jump over it and ends
with the release of its cells. So two machines with enough cells do the same, step by step. -/
theorem memory_layout (compiled : compile source = .ok program)
    (spells : tree.Spells (tokenize source).tokens) :
    ∃ cells : Nat, program.code.nextAddress = cells ∧
      program.symbols.cells.map (·.address) =
        (List.range cells).map (fun (cell : Nat) => (cell : Int)) ∧
      (∀ instruction ∈ program.code.instructions, instruction.opcode.hasAddress = true →
        ∃ symbol ∈ program.symbols.cells, instruction.argument = .integer symbol.address) ∧
      program.code.reservations = List.replicate (program.symbols.count .var) (.integer 1) ∧
      List.Forall₂ (fun declared symbol => ∃ skip target last,
        program.code.Contains declared symbol skip target last) tree.procedures
        program.symbols.procedures ∧
      ∀ (firstSize secondSize : Int) (input : Input), cells ≤ firstSize → cells ≤ secondSize →
        ∃ first second, Machine.create program.code firstSize input = .ok first ∧
          Machine.create program.code secondSize input = .ok second ∧
          ∀ limit, (first.run limit).Agree cells (second.run limit) := by
  obtain ⟨cells, used, sound, addresses⟩ := addresses_of_compile compiled
  refine ⟨cells, used, addresses, fun _ => exists_symbol_of_hasAddress compiled,
    reservations_of_compile compiled, contains_procedures compiled spells, ?_⟩
  intro firstSize secondSize input firstEnough secondEnough
  have created (size : Int) (enough : cells ≤ size) : Machine.create program.code size input = .ok
      { code := program.code, memory := Memory.blank size.toNat, input } :=
    Machine.create_eq_ok_iff.mpr ⟨by omega, by omega, rfl⟩
  refine ⟨_, _, created firstSize firstEnough, created secondSize secondEnough, fun limit => ?_⟩
  exact Machine.agree_run sound (by omega) (by omega) input limit

theorem memory_layout_shadowing :
    ∃ program first second,
      compile "program p; var a: real; procedure q(a: real); begin a := 1 end; begin a := 2 end." =
        .ok program ∧
      program.symbols.cells.map (·.address) = [0, 1] ∧
      Machine.create program.code 2 (.ofText "") = .ok first ∧
      Machine.create program.code 1000 (.ofText "") = .ok second ∧
      ∀ limit, (first.run limit).Agree 2 (second.run limit) := by
  have checked : (compile
      "program p; var a: real; procedure q(a: real); begin a := 1 end; begin a := 2 end.").toOption.any
        (fun program => program.code.nextAddress = 2) = true := by
    decide +kernel
  have spells : shadowingTree.Spells (tokenize
      "program p; var a: real; procedure q(a: real); begin a := 1 end; begin a := 2 end.").tokens :=
    ⟨⟨"", 1⟩, by decide +kernel⟩
  obtain ⟨program, compiled, used⟩ := exists_of_any checked
  obtain ⟨cells, same, addresses, _, _, _, runs⟩ := memory_layout compiled spells
  obtain rfl : cells = 2 := by
    have two := of_decide_eq_true used
    omega
  obtain ⟨first, second, firstCreated, secondCreated, agree⟩ :=
    runs 2 1000 (.ofText "") (by decide) (by decide)
  exact ⟨program, first, second, compiled, addresses, firstCreated, secondCreated, agree⟩

end Pascalet.Program
