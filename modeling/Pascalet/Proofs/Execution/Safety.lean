import Pascalet.Proofs.Code.ObjectText
import Pascalet.Proofs.Execution.Correctness

namespace Pascalet

def Fault.IsReading (fault : Fault) : Prop :=
  fault = .noInputLeft ∨ ∃ word, fault = .invalidInput word

theorem Core.State.isReading_of_takeNumber {state final : State} {fault : Fault}
    (failed : state.takeNumber = (.error fault, final)) : fault.IsReading := by
  unfold takeNumber at failed
  split at failed
  · cases failed
    exact .inl rfl
  · split at failed
    · cases failed
    · cases failed
      exact .inr ⟨_, rfl⟩

theorem Core.Exec.isReading {procedures : List Procedure} {command : Command} {state final : State}
    {fault : Fault} (exec : Exec procedures command state (.failed fault final)) :
    fault.IsReading := by
  generalize ends : Outcome.failed fault final = outcome at exec
  induction exec with
  | skip | read _ | write _ _ | assign _ _ _ | loopEnds _ => cases ends
  | readFails failed =>
    cases ends
    exact State.isReading_of_takeNumber failed
  | sequence _ _ _ ih | sequenceFails _ ih | choose _ _ ih | chooseOther _ _ ih | loop _ _ _ _ ih
  | loopFails _ _ ih | call _ _ ih => exact ih ends

/-- How a run of code should end: at the `stop` that is the last instruction, with nothing left on the
stacks, or in a read. -/
def Machine.EndsSafely (code : Buffer) (last : Machine) : Option MachineError → Prop
  | none => last.status = .halted ∧ last.stack = [] ∧ last.returns = [] ∧
      last.pc + 1 = code.size ∧ code.instructions[last.pc]? = some ⟨.stop, .absent⟩
  | some error => ∃ fault pc, error = .execution fault pc ∧ fault.IsReading

def Buffer.RunsSafely (code : Buffer) : Prop :=
  ∀ (memorySize : Int) (input : String) (machine : Machine),
    Machine.create code memorySize (.ofText input) = .ok machine →
    ∀ (limit : Nat) (last : Machine) (error : Option MachineError),
      machine.run limit = .stopped last error → last.EndsSafely code error

theorem Machine.Executable.runsSafely {core : Core.Program} {cells : Nat} {code : Buffer}
    (executable : ∀ memorySize : Int, 0 ≤ memorySize → code.nextAddress ≤ memorySize →
      Executable core cells code memorySize.toNat) : code.RunsSafely := by
  intro memorySize input machine created limit last error stopped
  obtain ⟨natural, enough, _⟩ := create_eq_ok_iff.mp created
  have runs := executable memorySize natural enough
  rcases runs.exec_of_stopped (shows_of_create created) stopped with
    ⟨rfl, status, stack, returns, pc, _⟩ | ⟨fault, pc, rfl, _, exec⟩
  · refine ⟨status, stack, returns, ?_, ?_⟩
    · rw [pc]
      exact runs.size_eq
    · rw [pc]
      exact (runs.moves_body (.initial input)).2.1
  · exact ⟨fault, pc, rfl, exec.isReading⟩

theorem Buffer.mem_addresses_iff {code : Buffer} {address : Int} :
    address ∈ code.addresses.filterMap Argument.integer? ↔
      ∃ opcode, opcode.hasAddress = true ∧ ⟨opcode, .integer address⟩ ∈ code.instructions := by
  simp only [List.mem_filterMap, addresses, List.mem_map, List.mem_filter, Array.mem_toList_iff]
  constructor
  · rintro ⟨_, ⟨⟨opcode, argument⟩, ⟨found, addressed⟩, rfl⟩, same⟩
    cases argument with
    | integer value =>
      cases same
      exact ⟨opcode, addressed, found⟩
    | _ => cases same
  · rintro ⟨opcode, addressed, found⟩
    exact ⟨.integer address, ⟨_, ⟨found, addressed⟩, rfl⟩, rfl⟩

theorem Buffer.lt_addressedCells {code : Buffer} {opcode : Opcode} {address : Int}
    (found : ⟨opcode, .integer address⟩ ∈ code.instructions) (addressed : opcode.hasAddress = true) :
    address < code.addressedCells := by
  have member := mem_addresses_iff.mpr ⟨opcode, addressed, found⟩
  obtain ⟨highest, maximal⟩ := Option.isSome_iff_exists.mp (List.isSome_max?_of_mem member)
  have bounded : address ≤ highest := (List.max?_le_iff maximal).mp (Int.le_refl highest) address member
  have cells : code.addressedCells = highest + 1 := by
    rw [addressedCells, maximal, Option.getD_some]
  omega

theorem Buffer.lt_requiredMemory {code : Buffer} {opcode : Opcode} {address : Int}
    (found : ⟨opcode, .integer address⟩ ∈ code.instructions) (addressed : opcode.hasAddress = true) :
    address < code.requiredMemory := by
  have inside := lt_addressedCells found addressed
  have needed : code.addressedCells ≤ code.requiredMemory := Int.le_max_right _ _
  omega

theorem Instruction.Sound.writable {memorySize : Nat} {instruction : Instruction}
    (sound : instruction.Sound memorySize)
    (short : ∀ value, instruction.argument = .integer value → Numeral.isWritable value = true) :
    instruction.Writable := by
  obtain ⟨opcode, argument⟩ := instruction
  unfold Sound at sound
  split at sound
  next takes =>
    obtain ⟨rfl, known⟩ := sound
    exact .absent takes (Opcode.mem_all known)
  next takes =>
    obtain ⟨value, rfl, _⟩ := sound
    exact .integer takes (Opcode.mem_all (by rintro name rfl; cases takes)) (short value rfl)
  next takes =>
    obtain ⟨text, rfl, decimal⟩ := sound
    have solid := Text.solid_of_ink decimal.ink
    exact .numeral takes (Opcode.mem_all (by rintro name rfl; cases takes))
      (Numeral.real?_isSome decimal) solid.trim_eq_self

/-- What can be executed can be executed again after it was written and read. -/
theorem Machine.Executable.load {core : Core.Program} {cells : Nat} {code : Buffer}
    {memorySize : Nat} (executable : Executable core cells code memorySize) {size : Int}
    (natural : 0 ≤ size) (enough : (ObjectText.load code.instructions.toList).nextAddress ≤ size) :
    Executable core cells (ObjectText.load code.instructions.toList) size.toNat := by
  refine ⟨executable.instructions, ?_, executable.valid⟩
  intro instruction found
  have original : instruction ∈ code.instructions := found
  refine (executable.sound instruction original).resize fun address same addressed => ?_
  obtain ⟨opcode, argument⟩ := instruction
  subst same
  have inside := Buffer.lt_requiredMemory found addressed
  have needed : (ObjectText.load code.instructions.toList).nextAddress =
      (ObjectText.load code.instructions.toList).requiredMemory := rfl
  omega

/-- Compiled programs do not go wrong, whatever memory is accepted for them: not the code that was
compiled, nor the code that is read from its object text. -/
theorem Program.compiled_code_runs_safely {source : String} {program : Program}
    (compiled : compile source = .ok program) :
    program.code.RunsSafely ∧
    ((∀ instruction ∈ program.code.instructions, ∀ value,
        instruction.argument = .integer value → Numeral.isWritable value = true) →
      ∃ reloaded, ObjectText.read (ObjectText.write program.code) = .ok reloaded ∧
        reloaded.instructions = program.code.instructions ∧ reloaded.RunsSafely) := by
  obtain ⟨tree, spells⟩ := (exists_spells_of_compile compiled).2
  obtain ⟨core, context, _, cells, executable⟩ := executable_of_compile compiled spells
  constructor
  · exact Machine.Executable.runsSafely fun memorySize natural enough => executable _ (by omega)
  · intro short
    have sound := (executable context.cells (Nat.le_refl _)).sound
    refine ⟨_, ObjectText.read_write fun instruction found => ?_, ?_, ?_⟩
    · have member := Array.mem_toList_iff.mp found
      exact (sound instruction member).writable (short instruction member)
    · simp [ObjectText.load, Buffer.ofInstructions]
    · exact Machine.Executable.runsSafely fun memorySize natural enough =>
        (executable context.cells (Nat.le_refl _)).load natural enough

theorem Program.compiled_code_runs_safely_recursion :
    ∃ program reloaded,
      compile "program p; procedure q(a: real); begin if a > 0 then q(a) $ end; begin end." =
        .ok program ∧
      program.code.RunsSafely ∧
      ObjectText.read (ObjectText.write program.code) = .ok reloaded ∧
      reloaded.RunsSafely := by
  have checked : (compile
      "program p; procedure q(a: real); begin if a > 0 then q(a) $ end; begin end.").toOption.any
        (fun program => program.code.instructions.all fun instruction =>
          instruction.argument.integer?.all Numeral.isWritable) = true := by
    decide +kernel
  obtain ⟨program, compiled, short⟩ := exists_of_any checked
  obtain ⟨safe, again⟩ := compiled_code_runs_safely compiled
  obtain ⟨reloaded, read, _, safeAgain⟩ := again fun instruction found value same => by
    have written := Array.all_eq_true_iff_forall_mem.mp short instruction found
    rw [same, Argument.integer?, Option.all_some] at written
    exact written
  exact ⟨program, reloaded, compiled, safe, read, safeAgain⟩

end Pascalet
