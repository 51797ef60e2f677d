import Pascalet.Proofs.Calls.Placement
import Pascalet.Proofs.Calls.Site
import Pascalet.Proofs.Machine.Control

namespace Pascalet

namespace Buffer

def Jumps (code : Buffer) (index target : Nat) : Prop :=
  ∃ opcode, (opcode = .jump ∨ opcode = .jumpIfZero) ∧
    code.instructions[index]? = some ⟨opcode, .integer target⟩

variable {code : Buffer} {entries : List Nat} {place : Nat → Prop} {returns : Prop} {index : Nat}

theorem Flow.place_of_jumps {opcode : Opcode} {target : Nat}
    (flow : code.Flow entries place returns index ⟨opcode, .integer target⟩)
    (jumps : opcode = .jump ∨ opcode = .jumpIfZero) : place target := by
  rcases jumps with rfl | rfl
  · cases flow with
    | plain isPlain => cases isPlain
    | jump there => exact there
  · cases flow with
    | plain isPlain => cases isPlain
    | jumpIfZero _ _ there => exact there

end Buffer

namespace Program

/-- The body of the program begins here. In front of it are the reservations, and the procedures with
the jumps over them. -/
structure BodyFrom (program : Program) (bodyStart : Nat) : Prop where
  behind : 0 < bodyStart
  before : bodyStart < program.code.size
  declarations : ∀ index, 0 < index → (index < bodyStart ↔
    program.code.instructions[index]? = some ⟨.reserve, .integer 1⟩ ∨
      program.IsEntry (index + 1) ∨ ∃ entry, program.InExtent entry index)

/-- A call of a procedure with all its arguments. The procedure begins with taking them, the last
one first. -/
structure CallsAt (program : Program) (index : Nat) (symbol : Symbol) : Prop where
  pushes : program.code.instructions[index]? =
    some ⟨.pushReturn, .integer (index + symbol.parameters.length + 2 : Nat)⟩
  passes : ∀ position < symbol.parameters.length, ∃ argument,
    program.code.instructions[index + 1 + position]? = some ⟨.pass, argument⟩
  calls : program.code.instructions[index + symbol.parameters.length + 1]? =
    some ⟨.call, .integer symbol.address⟩
  parameters : (program.symbols.parametersOf symbol.name).length = symbol.parameters.length
  stores : ∃ entry : Nat, symbol.address = entry ∧ program.code.Has entry
    ((program.symbols.parametersOf symbol.name).reverse.map fun parameter =>
      ⟨.store, .integer parameter.address⟩)

/-- Control flow in the code of a program. -/
structure WellBracketed (program : Program) (tree : Tree.Program) : Prop where
  starts : program.code.instructions[0]? = some ⟨.start, .absent⟩
  stops : ∀ index instruction, program.code.instructions[index]? = some instruction →
    (instruction.opcode = .stop ↔ index + 1 = program.code.size)
  targets : ∀ (index : Nat) (instruction : Instruction),
    program.code.instructions[index]? = some instruction →
    instruction.opcode.hasTarget = true ∨ instruction.opcode = .pushReturn →
    ∃ target : Nat, instruction.argument = .integer target ∧ 1 ≤ target ∧ target < program.code.size
  forward : ∀ index target : Nat,
    program.code.instructions[index]? = some ⟨.jumpIfZero, .integer target⟩ → index < target
  inside : ∀ entry last index target, program.IsEntry entry → program.code.Extent entry last →
    entry ≤ index → index ≤ last → program.code.Jumps index target →
    entry ≤ target ∧ ∃ release, target ≤ release ∧ release + 1 = last ∧ ∃ count,
      program.code.instructions[release]? = some ⟨.release, .integer count⟩
  body : ∃ bodyStart, program.BodyFrom bodyStart ∧
    ∀ index target, bodyStart ≤ index → program.code.Jumps index target →
      bodyStart ≤ target ∧ target < program.code.size
  skips : ∀ front back, tree.items = front ++ back → ∃ target, program.InMain target ∧
    program.SkipsGroup (Tree.procedures front).length (Tree.leading back) target
  calls : ∀ index argument, program.code.instructions[index]? = some ⟨.pushReturn, argument⟩ →
    ∃ symbol ∈ program.symbols.procedures, program.CallsAt index symbol

end Program

theorem Core.map_store_of_addresses {parameters : List Symbol} {firstCell count : Nat}
    (cells : parameters.map (·.address) =
      (List.range' firstCell count).map fun (cell : Nat) => (cell : Int)) :
    parameters.reverse.map (fun parameter => ⟨.store, .integer parameter.address⟩) =
      storeAll firstCell count := by
  have stored := congrArg (List.map fun address => (⟨.store, .integer address⟩ : Instruction)) cells
  rw [List.map_map, List.map_map] at stored
  rw [storeAll, List.map_reverse, List.map_reverse]
  exact congrArg List.reverse stored

namespace Core.Program

variable {core : Core.Program} {index : Nat}

theorem bodyStart_pos (core : Core.Program) : 0 < core.bodyStart 0 := by
  rw [bodyStart]
  omega

theorem before_body {entry : Nat} (here : core.region index = some entry) :
    1 < entry ∧ entry ≤ index ∧ index < core.bodyStart 0 := by
  have bounds := bounds_of_itemsRegion here
  rw [bodyStart]
  omega

end Core.Program

namespace Machine.Executable

open Pascalet.Core Pascalet.Buffer

variable {core : Core.Program} {cells memorySize index : Nat} {code : Buffer}
  {instruction : Instruction}

theorem stop_iff (executable : Executable core cells code memorySize)
    (fetched : code.instructions[index]? = some instruction) :
    instruction.opcode = .stop ↔ index + 1 = code.size := by
  have size := executable.size_eq
  have positive := core.bodyStart_pos
  cases executable.site fetched with
  | start first => exact iff_of_false (by simp) (by omega)
  | declaration behind before main kind =>
    refine iff_of_false ?_ (by omega)
    rcases kind with rfl | ⟨_, _, rfl⟩
    · simp
    · simp
  | frame here kind =>
    have before := Program.before_body here
    refine iff_of_false (fun stops => ?_) (by omega)
    rw [stops] at kind
    simp [Opcode.isPlain] at kind
  | inner here placed behind before =>
    have beforeBody := Program.before_body here
    refine iff_of_false (fun stops => ?_) (by omega)
    have inner := placed.isInner behind before fetched
    rw [stops] at inner
    cases inner
  | body placed behind before =>
    refine iff_of_false (fun stops => ?_) (by omega)
    have inner := placed.isInner behind before fetched
    rw [stops] at inner
    cases inner
  | stop last => exact iff_of_true rfl last

theorem orderly (executable : Executable core cells code memorySize)
    (fetched : code.instructions[index]? = some instruction) :
    Orderly code (core.entries 0) (core.procedures.map (·.parameterCount)) index instruction := by
  cases executable.site fetched with
  | start => exact .other (by simp)
  | declaration behind before main kind =>
    rcases kind with rfl | ⟨_, _, rfl⟩
    · exact .other (by simp)
    · exact .other (by simp)
  | frame here kind =>
    apply Orderly.other
    constructor
    · intro same
      rw [same] at kind
      simp [Opcode.isPlain] at kind
    · intro same
      rw [same] at kind
      simp [Opcode.isPlain] at kind
  | inner here placed behind before => exact placed.orderly behind before fetched
  | body placed behind before => exact placed.orderly behind before fetched
  | stop => exact .other (by simp)

theorem jumps_inside (executable : Executable core cells code memorySize) {entry last target : Nat}
    (here : core.region index = some entry) (extent : code.Extent entry last)
    (jumps : code.Jumps index target) :
    entry ≤ target ∧ ∃ release, target ≤ release ∧ release + 1 = last ∧ ∃ count,
      code.instructions[release]? = some ⟨.release, .integer count⟩ := by
  have bounds := Program.before_body here
  obtain ⟨opcode, kinds, fetched⟩ := jumps
  cases executable.site fetched with
  | declaration behind before main => cases main.symm.trans here
  | frame sameHere kind =>
    rcases kinds with rfl | rfl
    · simp [Opcode.isPlain] at kind
    · simp [Opcode.isPlain] at kind
  | inner sameHere placed behind before inside sameExtent released =>
    cases here.symm.trans sameHere
    have there := (placed.flow behind before fetched).place_of_jumps kinds
    have final := sameExtent.unique extent
    exact ⟨Nat.le_trans inside there.1, _, there.2, final, _, released⟩
  | body placed behind before => omega

theorem jumps_body (executable : Executable core cells code memorySize) {target : Nat}
    (inBody : core.bodyStart 0 ≤ index) (jumps : code.Jumps index target) :
    core.bodyStart 0 ≤ target ∧ target < code.size := by
  have size := executable.size_eq
  have positive := core.bodyStart_pos
  obtain ⟨opcode, kinds, fetched⟩ := jumps
  cases executable.site fetched with
  | declaration behind before => omega
  | frame here =>
    have before := Program.before_body here
    omega
  | inner here =>
    have before := Program.before_body here
    omega
  | body placed behind before =>
    have there := (placed.flow behind before fetched).place_of_jumps kinds
    exact ⟨there.1, by have upTo := there.2; omega⟩

end Machine.Executable

namespace Program

variable {source : String} {program : Program} {tree : Tree.Program} {core : Core.Program}
  {context : Context}

namespace Assembled

theorem target_inside (assembled : program.Assembled tree core context) {index : Nat}
    {instruction : Instruction} (fetched : program.code.instructions[index]? = some instruction)
    (targeted : instruction.opcode.hasTarget = true ∨ instruction.opcode = .pushReturn) :
    ∃ target : Nat, instruction.argument = .integer target ∧ 1 ≤ target ∧
      target < program.code.size := by
  cases assembled.executable.flow.2 index instruction fetched with
  | plain isPlain =>
    obtain ⟨opcode, argument⟩ := instruction
    cases opcode <;> simp [Opcode.isPlain, Opcode.hasTarget] at isPlain targeted
  | jump there => exact ⟨_, rfl, there.1, there.2.1⟩
  | jumpIfZero _ _ there => exact ⟨_, rfl, there.1, there.2.1⟩
  | pushReturn sequence =>
    have ordered := sequence.ordered
    have there := sequence.places _ (by omega) (Nat.le_refl _)
    exact ⟨_, rfl, there.1, there.2.1⟩
  | call sequence =>
    obtain ⟨inside, _, here⟩ := assembled.regions.entered _ sequence.known
    have bounds := Core.Program.before_body here
    exact ⟨_, rfl, by omega, inside⟩
  | pass | stop | ret => simp [Opcode.hasTarget] at targeted

theorem bodyFrom (assembled : program.Assembled tree core context) :
    program.BodyFrom (core.bodyStart 0) := by
  have executable := assembled.executable
  have regions := assembled.regions
  have size := executable.size_eq
  have positive := core.bodyStart_pos
  refine ⟨positive, by omega, ?_⟩
  intro index behind
  constructor
  · intro before
    have inside : index < program.code.size := by omega
    obtain ⟨instruction, fetched⟩ : ∃ instruction,
        program.code.instructions[index]? = some instruction :=
      ⟨_, Array.getElem?_eq_getElem inside⟩
    rw [fetched]
    cases executable.site fetched with
    | start first => omega
    | declaration _ _ main kind =>
      rcases kind with reserves | ⟨entry, _⟩
      · exact .inl (congrArg _ reserves)
      · exact .inr (.inl (assembled.isEntry_iff.mpr entry))
    | frame here => exact .inr (.inr ⟨_, (regions.inExtent_iff _ _).mpr here⟩)
    | inner here => exact .inr (.inr ⟨_, (regions.inExtent_iff _ _).mpr here⟩)
    | body placed inBody => omega
    | stop last => omega
  · intro declares
    rcases declares with fetched | entry | ⟨entry, inside⟩
    · cases executable.site fetched with
      | declaration _ before => exact before
      | frame here => exact (Core.Program.before_body here).2.2
      | inner here => exact (Core.Program.before_body here).2.2
      -- Commands reserve nothing.
      | body placed inBody before => cases placed.isInner inBody before fetched
    · obtain ⟨_, _, here⟩ := regions.entered _ (assembled.isEntry_iff.mp entry)
      have before := Core.Program.before_body here
      omega
    · exact (Core.Program.before_body ((regions.inExtent_iff _ _).mp inside)).2.2

theorem exists_symbol (assembled : program.Assembled tree core context) {number : Nat}
    {called : Core.Procedure} (found : core.procedures[number]? = some called) :
    ∃ symbol, program.symbols.procedures[number]? = some symbol ∧ ∃ entry : Nat,
      symbol.address = entry ∧
      (core.entries 0).getD number 0 = entry ∧ symbol.parameters.length = called.parameterCount ∧
      (program.symbols.parametersOf symbol.name).map (·.address) =
        (List.range' called.firstCell called.parameterCount).map (fun (cell : Nat) => (cell : Int)) ∧
      program.code.Has entry (Core.storeAll called.firstCell called.parameterCount) := by
  obtain ⟨entry, entered, has, _⟩ := assembled.executable.linked number called found
  obtain ⟨declared, foundTree, counted, parameters⟩ := Tree.parameters_of_resolveItems
    (Tree.Program.of_resolve assembled.resolved).1 rfl (by simp [Context.ParametersOwned]) found
  have placed : program.symbols.procedures[number]? =
      some ((declared.symbol number).place (core.entries 0)) := by
    rw [assembled.procedures, List.getElem?_map, Tree.getElem?_procedureSymbols,
      Tree.Program.procedures, foundTree]
    simp
  have entryEq : (core.entries 0).getD number 0 = entry := by
    rw [List.getD_eq_getElem?_getD, entered, Option.getD_some]
  refine ⟨_, placed, entry, ?_, entryEq, ?_, ?_, has.append.1.append.1.append.1⟩
  · rw [Symbol.address_place rfl]
    simp only [Tree.Procedure.symbol, Int.toNat_natCast, entryEq]
  · simp [Tree.Procedure.symbol, counted]
  · have name : ((declared.symbol number).place (core.entries 0)).name = declared.name.lexeme := by
      simp [Tree.Procedure.symbol]
    have kept := @SymbolTable.parametersOf_place context.table (core.entries 0) declared.name.lexeme
    rw [name, assembled.assembled, counted, ← address_cellSymbols, ← parameters]
    exact congrArg (List.map (·.address)) kept

theorem callsAt_of_has (assembled : program.Assembled tree core context) {index number : Nat}
    {arguments : List Nat} {called : Core.Procedure} {symbol : Symbol}
    (found : core.procedures[number]? = some called) (count : called.parameterCount = arguments.length)
    (declared : program.symbols.procedures[number]? = some symbol)
    (has : program.code.Has index
      ((Core.Command.call number arguments).code (core.entries 0) index)) :
    program.CallsAt index symbol := by
  obtain ⟨_, same, entry, address, entryEq, length, cells, stores⟩ := assembled.exists_symbol found
  cases declared.symm.trans same
  -- The arguments are counted by the procedure of that number, and so are its own stores.
  rw [count] at length cells stores
  obtain ⟨hasFront, hasCall⟩ := has.append
  obtain ⟨fetchedPush, hasPasses⟩ := hasFront.cons
  have fetchedCall := hasCall.cons.1
  rw [List.length_cons, List.length_map, ← Nat.add_assoc, entryEq] at fetchedCall
  refine ⟨?_, ?_, ?_, ?_, entry, address, ?_⟩
  · rw [length]
    exact fetchedPush
  · intro position inside
    obtain ⟨instruction, found, fetchedPass⟩ :=
      @Buffer.Has.get _ _ (index + 1 + position) _ hasPasses (by omega) (by simp; omega)
    obtain ⟨cell, _, rfl⟩ := List.mem_map.mp found
    exact ⟨_, fetchedPass⟩
  · rw [length, address]
    exact fetchedCall
  · have same := congrArg List.length cells
    simpa [length] using same
  · rw [Core.map_store_of_addresses cells]
    exact stores

theorem callsAt (assembled : program.Assembled tree core context) {index : Nat} {argument : Argument}
    (fetched : program.code.instructions[index]? = some ⟨.pushReturn, argument⟩) :
    ∃ symbol ∈ program.symbols.procedures, program.CallsAt index symbol := by
  cases assembled.executable.orderly fetched with
  | other neither => exact absurd rfl neither.2
  | @call number arguments counted has =>
    obtain ⟨called, found, count⟩ : ∃ called, core.procedures[number]? = some called ∧
        called.parameterCount = arguments.length := by
      simpa using counted
    obtain ⟨symbol, declared, _⟩ := assembled.exists_symbol found
    exact ⟨symbol, List.mem_of_getElem? declared,
      assembled.callsAt_of_has found count declared has⟩

theorem wellBracketed (assembled : program.Assembled tree core context) :
    program.WellBracketed tree where
  starts := assembled.executable.hasItems.1
  stops _ _ := assembled.executable.stop_iff
  targets _ _ := assembled.target_inside
  forward index target fetched := by
    cases assembled.executable.orderly fetched with
    | branch forward => exact forward
    | other neither => exact absurd rfl neither.1
  inside entry last index target isEntry extent behind before jumps := by
    have here := (assembled.regions.inExtent_iff entry index).mp ⟨isEntry, last, extent, behind, before⟩
    exact assembled.executable.jumps_inside here extent jumps
  body := ⟨_, assembled.bodyFrom, fun _ _ => assembled.executable.jumps_body⟩
  skips _ _ := assembled.skipsGroup
  calls _ _ := assembled.callsAt

end Assembled

theorem wellBracketed_of_compile (compiled : compile source = .ok program) :
    (∃ tree : Tree.Program, tree.Spells (tokenize source).tokens) ∧
      ∀ tree : Tree.Program, tree.Spells (tokenize source).tokens → program.WellBracketed tree := by
  refine ⟨(exists_spells_of_compile compiled).2, ?_⟩
  intro tree spells
  obtain ⟨core, context, assembled⟩ := exists_assembled compiled spells
  exact assembled.wellBracketed

theorem wellBracketed_loop_and_call :
    ∃ program tree symbol,
      compile ("program p; var a: real; procedure q(x, y: real); begin while x < y do read(x) $ end; " ++
        "begin read(a); q(a, a) end.") = .ok program ∧
      program.WellBracketed tree ∧ symbol ∈ program.symbols.procedures ∧
      program.CallsAt 16 symbol := by
  have checked : (compile
      ("program p; var a: real; procedure q(x, y: real); begin while x < y do read(x) $ end; " ++
        "begin read(a); q(a, a) end.")).toOption.any (fun program =>
        program.code.instructions[16]? = some ⟨.pushReturn, .integer 20⟩) = true := by
    decide +kernel
  obtain ⟨program, compiled, fetched⟩ := exists_of_any checked
  obtain ⟨⟨tree, spells⟩, bracketed⟩ := wellBracketed_of_compile compiled
  obtain ⟨symbol, member, calls⟩ := (bracketed tree spells).calls 16 _ (of_decide_eq_true fetched)
  exact ⟨program, tree, symbol, compiled, bracketed tree spells, member, calls⟩

end Program

end Pascalet
