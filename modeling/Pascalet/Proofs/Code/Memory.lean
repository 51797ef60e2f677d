import Pascalet.Proofs.Code.RoundTrip
import Pascalet.Proofs.Core.Counts

namespace Pascalet

theorem Buffer.addressedCells_eq_zero_or (code : Buffer) : code.addressedCells = 0 ∨
    ∃ opcode, opcode.hasAddress = true ∧
      ⟨opcode, .integer (code.addressedCells - 1)⟩ ∈ code.instructions := by
  unfold addressedCells
  cases maximal : (code.addresses.filterMap Argument.integer?).max? with
  | none => exact .inl rfl
  | some highest =>
    have found := mem_addresses_iff.mp (List.max?_mem maximal)
    have last : highest + 1 - 1 = highest := by omega
    right
    rwa [Option.getD_some, last]

theorem Buffer.reservedCells_of_replicate {code : Buffer} {count : Nat}
    (reserved : code.reservations = List.replicate count (.integer 1)) :
    code.reservedCells = count := by
  rw [reservedCells, reserved]
  clear reserved
  induction count with
  | zero => rfl
  | succ count ih =>
    have first : List.filterMap Argument.integer? (List.replicate (count + 1) (.integer 1)) =
        1 :: List.filterMap Argument.integer? (List.replicate count (.integer 1)) := rfl
    rw [first, List.foldr_cons, ih]
    omega

def Machine.Accepts (code : Buffer) (memorySize : Int) : Prop :=
  ∀ input, ∃ machine, create code memorySize input = .ok machine

theorem Machine.accepts_iff {code : Buffer} {memorySize : Int} :
    Accepts code memorySize ↔ 0 ≤ memorySize ∧ code.nextAddress ≤ memorySize := by
  constructor
  · intro accepts
    obtain ⟨machine, created⟩ := accepts {}
    obtain ⟨natural, enough, _⟩ := create_eq_ok_iff.mp created
    exact ⟨natural, enough⟩
  · rintro ⟨natural, enough⟩ input
    exact ⟨_, create_eq_ok_iff.mpr ⟨natural, enough, rfl⟩⟩

namespace Program

/-- Does the code show all cells of the program? Cells are set aside for variables only, so where there
are parameters the last cell has to be used. -/
def ShowsMemory (program : Program) : Prop :=
  (∀ symbol ∈ program.symbols.symbols, symbol.category ≠ .parameter) ∨
    ∃ opcode, opcode.hasAddress = true ∧
      ⟨opcode, .integer (program.code.nextAddress - 1)⟩ ∈ program.code.instructions

theorem count_place (table : SymbolTable) (entries : List Nat) (category : Category) :
    (table.place entries).count category = table.count category := by
  simp [SymbolTable.count, SymbolTable.place, List.countP_map, Function.comp_def]

variable {source : String} {program : Program}

theorem memory_of_compile (compiled : compile source = .ok program) :
    program.code.reservedCells = program.symbols.count .var ∧
    program.code.nextAddress = program.symbols.count .var + program.symbols.count .parameter ∧
    program.code.addressedCells ≤ program.code.nextAddress := by
  obtain ⟨tree, spells⟩ := (exists_spells_of_compile compiled).2
  obtain ⟨core, context, resolved, cells, executable⟩ := executable_of_compile compiled spells
  have sound := (executable context.cells (Nat.le_refl _)).sound
  have used : program.code.addressedCells ≤ program.code.nextAddress := by
    rcases program.code.addressedCells_eq_zero_or with none | ⟨opcode, addressed, found⟩
    · omega
    · obtain ⟨address, same, inside⟩ := (sound _ found).exists_address addressed
      have last := Argument.integer.inj same
      omega
  obtain ⟨_, _, resolvedAgain, rfl⟩ := exists_core_of_compile compiled spells
  rw [resolved] at resolvedAgain
  cases resolvedAgain
  obtain ⟨varCount, parameterCount, total⟩ :=
    Tree.counts_of_resolveItems (Tree.Program.of_resolve resolved).1
  have nothing (category : Category) : SymbolTable.count category {} = 0 := rfl
  simp only [nothing, Nat.zero_add] at varCount parameterCount total
  have symbols (category : Category) :
      (core.assemble tree.name.lexeme context).symbols.count category = context.table.count category :=
    count_place context.table (core.entries 0) category
  have reserved := Buffer.reservedCells_of_replicate (show
    (core.assemble tree.name.lexeme context).code.reservations = _ from core.reservationsIn_code 0)
  rw [symbols, symbols]
  omega

theorem showsMemory_iff (compiled : compile source = .ok program) :
    program.ShowsMemory ↔
      max program.code.reservedCells program.code.addressedCells = program.code.nextAddress := by
  obtain ⟨reserved, declared, used⟩ := memory_of_compile compiled
  have noParameter : (∀ symbol ∈ program.symbols.symbols, symbol.category ≠ .parameter) ↔
      program.symbols.count .parameter = 0 := by
    simp [SymbolTable.count, List.countP_eq_zero]
  rw [ShowsMemory, noParameter]
  constructor
  · rintro (none | ⟨opcode, addressed, found⟩)
    · omega
    · have last := Buffer.lt_addressedCells found addressed
      omega
  · intro all
    by_cases none : program.symbols.count .parameter = 0
    · exact .inl none
    · right
      have same : program.code.addressedCells = program.code.nextAddress := by omega
      rcases program.code.addressedCells_eq_zero_or with nothing | found
      · omega
      · rwa [same] at found

/-- Loaded code never asks for more memory than the program that was saved. It asks for the same just
when the code shows all cells, and only then the same machines are good enough. -/
theorem reloaded_memory (compiled : compile source = .ok program)
    (short : ∀ instruction ∈ program.code.instructions, ∀ value,
      instruction.argument = .integer value → Numeral.isWritable value = true) :
    ∃ reloaded, ObjectText.read (ObjectText.write program.code) = .ok reloaded ∧
      reloaded.nextAddress ≤ program.code.nextAddress ∧
      (reloaded.nextAddress = program.code.nextAddress ↔ program.ShowsMemory) ∧
      (∀ memorySize, Machine.Accepts program.code memorySize →
        Machine.Accepts reloaded memorySize) ∧
      ((∀ memorySize, Machine.Accepts reloaded memorySize ↔
        Machine.Accepts program.code memorySize) ↔ program.ShowsMemory) := by
  obtain ⟨reserved, declared, used⟩ := memory_of_compile compiled
  have read := (writable_of_compile compiled short).read_write
  have needed : (ObjectText.load program.code.instructions.toList).nextAddress =
      max program.code.reservedCells program.code.addressedCells := rfl
  generalize ObjectText.load program.code.instructions.toList = reloaded at read needed
  have shows := showsMemory_iff compiled
  rw [← needed] at shows
  refine ⟨reloaded, read, by omega, shows.symm, ?_, ?_⟩
  · intro memorySize accepted
    rw [Machine.accepts_iff] at accepted ⊢
    omega
  · rw [shows]
    constructor
    · intro same
      have enough := same reloaded.nextAddress
      rw [Machine.accepts_iff, Machine.accepts_iff] at enough
      omega
    · intro all memorySize
      rw [Machine.accepts_iff, Machine.accepts_iff]
      omega

theorem reloaded_memory_used_variable :
    ∃ program reloaded,
      compile "program p; procedure q(a: real); begin end; var x: real; begin x := 1 end." =
        .ok program ∧
      ObjectText.read (ObjectText.write program.code) = .ok reloaded ∧
      ∀ memorySize, Machine.Accepts reloaded memorySize ↔
        Machine.Accepts program.code memorySize := by
  have checked : (compile
      "program p; procedure q(a: real); begin end; var x: real; begin x := 1 end.").toOption.any
        (fun program => decide (program.code.nextAddress = 2) &&
          decide (⟨.store, .integer 1⟩ ∈ program.code.instructions) &&
          program.code.instructions.all fun instruction =>
            instruction.argument.integer?.all Numeral.isWritable) = true := by
    decide +kernel
  obtain ⟨program, compiled, facts⟩ := exists_of_any checked
  simp only [Bool.and_eq_true, decide_eq_true_eq] at facts
  obtain ⟨⟨cells, stored⟩, short⟩ := facts
  obtain ⟨reloaded, read, _, _, _, same⟩ := reloaded_memory compiled (Buffer.short_of_all short)
  have shows : program.ShowsMemory := by
    refine .inr ⟨.store, rfl, ?_⟩
    rw [cells]
    exact stored
  exact ⟨program, reloaded, compiled, read, same.mpr shows⟩

/-- The second cell is the variable's, but only one cell is set aside and only the first one is used,
which is the parameter's. -/
theorem reloaded_memory_unused_variable :
    ∃ program reloaded,
      compile "program p; procedure q(a: real); begin end; var x: real; begin end." = .ok program ∧
      ObjectText.read (ObjectText.write program.code) = .ok reloaded ∧
      program.code.nextAddress = 2 ∧ reloaded.nextAddress = 1 ∧
      Machine.Accepts reloaded 1 ∧ ¬ Machine.Accepts program.code 1 := by
  have checked : (compile
      "program p; procedure q(a: real); begin end; var x: real; begin end.").toOption.any
        (fun program => decide (program.code.nextAddress = 2) &&
          (ObjectText.read (ObjectText.write program.code)).toOption.any fun reloaded =>
            decide (reloaded.nextAddress = 1)) = true := by
    decide +kernel
  obtain ⟨program, compiled, facts⟩ := exists_of_any checked
  rw [Bool.and_eq_true, decide_eq_true_eq] at facts
  obtain ⟨reloaded, read, cells⟩ := exists_of_any facts.2
  have reloadedCells : reloaded.nextAddress = 1 := of_decide_eq_true cells
  refine ⟨program, reloaded, compiled, read, facts.1, reloadedCells, ?_, ?_⟩
  · rw [Machine.accepts_iff]
    omega
  · rw [Machine.accepts_iff]
    omega

end Program

end Pascalet
