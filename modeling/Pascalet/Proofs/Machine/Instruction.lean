import Pascalet.Proofs.Machine.Effect
import Pascalet.Proofs.Machine.Moves

namespace Pascalet.Machine

variable {code : Buffer} {memorySize pc : Nat} {stack : List Binary64} {returns : List Nat}
  {state : Core.State}

theorem moves_of_effect {last : Config} {instruction : Instruction} (effect : Machine → Machine)
    (fetched : code.instructions[pc]? = some instruction)
    (stepped : ∀ machine, machine.code.instructions[machine.pc]? = some instruction →
      Shows code memorySize ⟨pc, stack, returns, state⟩ machine →
      machine.step = .ok () (effect machine) ∧ (effect machine).code = machine.code ∧
        (effect machine).memory.size = machine.memory.size ∧
        (effect machine).status = machine.status ∧ (effect machine).config = last) :
    Moves code memorySize 1 ⟨pc, stack, returns, state⟩ last := by
  apply moves_of_step
  intro machine shown
  have here : machine.pc = pc := congrArg Config.pc shown.config
  obtain ⟨done, sameCode, sameSize, sameStatus, config⟩ :=
    stepped machine (by rw [shown.code, here]; exact fetched) shown
  exact ⟨effect machine, done, sameCode.trans shown.code, sameSize.trans shown.memorySize,
    sameStatus.trans shown.running, config⟩

theorem moves_note {instruction : Instruction}
    (notes : instruction.opcode = .start ∨ instruction.opcode = .reserve)
    (fetched : code.instructions[pc]? = some instruction) :
    Moves code memorySize 1 ⟨pc, stack, returns, state⟩ ⟨pc + 1, stack, returns, state⟩ := by
  apply moves_of_effect (fun machine => machine.behind 1 machine.stack) fetched
  rintro machine here ⟨rfl, rfl, running, config⟩
  obtain ⟨rfl, rfl, rfl, rfl⟩ := Config.mk.inj config
  exact ⟨step_note notes here, rfl, rfl, rfl, rfl⟩

theorem moves_release {count : Nat}
    (fetched : code.instructions[pc]? = some ⟨.release, .integer count⟩) :
    Moves code memorySize 1 ⟨pc, stack, returns, state⟩ ⟨pc + 1, stack, returns, state⟩ := by
  apply moves_of_effect (fun machine =>
    { machine.behind 1 machine.stack with released := machine.released + count }) fetched
  rintro machine here ⟨rfl, rfl, running, config⟩
  obtain ⟨rfl, rfl, rfl, rfl⟩ := Config.mk.inj config
  exact ⟨step_release here, rfl, rfl, rfl, rfl⟩

theorem moves_constant {text : String} {value : Binary64}
    (fetched : code.instructions[pc]? = some ⟨.constant, .text text⟩)
    (number : Numeral.real? text.toList = some value) :
    Moves code memorySize 1 ⟨pc, stack, returns, state⟩ ⟨pc + 1, value :: stack, returns, state⟩ := by
  apply moves_of_effect (fun machine => machine.behind 1 (value :: machine.stack)) fetched
  rintro machine here ⟨rfl, rfl, running, config⟩
  obtain ⟨rfl, rfl, rfl, rfl⟩ := Config.mk.inj config
  exact ⟨step_constant here number, rfl, rfl, rfl, rfl⟩

theorem moves_load {address : Nat} {opcode : Opcode} (loads : opcode = .load ∨ opcode = .pass)
    (fetched : code.instructions[pc]? = some ⟨opcode, .integer address⟩)
    (inside : address < memorySize) :
    Moves code memorySize 1 ⟨pc, stack, returns, state⟩
      ⟨pc + 1, state.cells address :: stack, returns, state⟩ := by
  apply moves_of_effect (fun machine =>
    machine.behind 1 (machine.memory.get address :: machine.stack)) fetched
  rintro machine here ⟨rfl, rfl, running, config⟩
  obtain ⟨rfl, rfl, rfl, rfl⟩ := Config.mk.inj config
  exact ⟨step_load loads here inside, rfl, rfl, rfl, rfl⟩

theorem observe_set {machine : Machine} {address : Nat} (inside : address < machine.memory.size)
    (value : Binary64) :
    { machine with memory := machine.memory.set address value }.observe =
      machine.observe.set address value := by
  have cells : (machine.memory.set address value).get =
      fun cell => if cell = address then value else machine.memory.get cell := by
    funext cell
    split
    next same => rw [same, Memory.get_set_self inside]
    next distinct => rw [Memory.get_set_of_ne (Ne.symm distinct)]
  simp [observe, Core.State.set, cells]

theorem moves_store {address : Nat} {value : Binary64}
    (fetched : code.instructions[pc]? = some ⟨.store, .integer address⟩)
    (inside : address < memorySize) :
    Moves code memorySize 1 ⟨pc, value :: stack, returns, state⟩
      ⟨pc + 1, stack, returns, state.set address value⟩ := by
  apply moves_of_effect (fun machine =>
    { machine.behind 1 stack with memory := machine.memory.set address value }) fetched
  rintro machine here ⟨rfl, rfl, running, config⟩
  obtain ⟨rfl, top, rfl, rfl⟩ := Config.mk.inj config
  refine ⟨step_store here top inside, rfl, Memory.size_set _ _ _, rfl, ?_⟩
  exact congrArg (Config.mk _ _ _) (observe_set inside value)

theorem moves_arithmetic {operator : Operator} {left right : Binary64}
    (fetched : code.instructions[pc]? = some ⟨.arithmetic operator, .absent⟩) :
    Moves code memorySize 1 ⟨pc, right :: left :: stack, returns, state⟩
      ⟨pc + 1, operator.apply left right :: stack, returns, state⟩ := by
  apply moves_of_effect (fun machine =>
    machine.behind 1 (operator.apply left right :: stack)) fetched
  rintro machine here ⟨rfl, rfl, running, config⟩
  obtain ⟨rfl, top, rfl, rfl⟩ := Config.mk.inj config
  exact ⟨step_arithmetic here top, rfl, rfl, rfl, rfl⟩

theorem moves_negate {operand : Binary64}
    (fetched : code.instructions[pc]? = some ⟨.negate, .absent⟩) :
    Moves code memorySize 1 ⟨pc, operand :: stack, returns, state⟩
      ⟨pc + 1, -operand :: stack, returns, state⟩ := by
  apply moves_of_effect (fun machine => machine.behind 1 (-operand :: stack)) fetched
  rintro machine here ⟨rfl, rfl, running, config⟩
  obtain ⟨rfl, top, rfl, rfl⟩ := Config.mk.inj config
  exact ⟨step_negate here top, rfl, rfl, rfl, rfl⟩

theorem moves_compare {relation : Relation} {left right : Binary64}
    (fetched : code.instructions[pc]? = some ⟨.compare relation, .absent⟩) :
    Moves code memorySize 1 ⟨pc, right :: left :: stack, returns, state⟩
      ⟨pc + 1, relation.apply left right :: stack, returns, state⟩ := by
  apply moves_of_effect (fun machine =>
    machine.behind 1 (relation.apply left right :: stack)) fetched
  rintro machine here ⟨rfl, rfl, running, config⟩
  obtain ⟨rfl, top, rfl, rfl⟩ := Config.mk.inj config
  exact ⟨step_compare here top, rfl, rfl, rfl, rfl⟩

theorem moves_write {value : Binary64}
    (fetched : code.instructions[pc]? = some ⟨.write, .absent⟩) :
    Moves code memorySize 1 ⟨pc, value :: stack, returns, state⟩
      ⟨pc + 1, stack, returns, state.print value⟩ := by
  apply moves_of_effect (fun machine =>
    { machine.behind 1 stack with output := machine.output.push value.printed }) fetched
  rintro machine here ⟨rfl, rfl, running, config⟩
  obtain ⟨rfl, top, rfl, rfl⟩ := Config.mk.inj config
  refine ⟨step_write here top, rfl, rfl, rfl, ?_⟩
  simp [Machine.config, observe, behind, Core.State.print]

theorem moves_jump {target : Nat} {opcode : Opcode} (jumps : opcode = .jump ∨ opcode = .call)
    (fetched : code.instructions[pc]? = some ⟨opcode, .integer target⟩)
    (inside : target ≤ code.size) :
    Moves code memorySize 1 ⟨pc, stack, returns, state⟩ ⟨target, stack, returns, state⟩ := by
  apply moves_of_effect (fun machine => { machine with
    steps := machine.steps + 1, pc := target }) fetched
  rintro machine here ⟨rfl, rfl, running, config⟩
  obtain ⟨rfl, rfl, rfl, rfl⟩ := Config.mk.inj config
  exact ⟨step_jump jumps here inside, rfl, rfl, rfl, rfl⟩

theorem moves_jumpIfZero {target : Nat} {value : Binary64}
    (fetched : code.instructions[pc]? = some ⟨.jumpIfZero, .integer target⟩)
    (inside : target ≤ code.size) :
    Moves code memorySize 1 ⟨pc, value :: stack, returns, state⟩
      ⟨if value.isZero then target else pc + 1, stack, returns, state⟩ := by
  apply moves_of_effect (fun machine => { machine with
    steps := machine.steps + 1, stack,
    pc := if value.isZero then target else machine.pc + 1 }) fetched
  rintro machine here ⟨rfl, rfl, running, config⟩
  obtain ⟨rfl, top, rfl, rfl⟩ := Config.mk.inj config
  exact ⟨step_jumpIfZero here top inside, rfl, rfl, rfl, rfl⟩

theorem moves_pushReturn {target : Nat}
    (fetched : code.instructions[pc]? = some ⟨.pushReturn, .integer target⟩)
    (inside : target ≤ code.size) :
    Moves code memorySize 1 ⟨pc, stack, returns, state⟩
      ⟨pc + 1, stack, target :: returns, state⟩ := by
  apply moves_of_effect (fun machine =>
    { machine.behind 1 machine.stack with returns := target :: machine.returns }) fetched
  rintro machine here ⟨rfl, rfl, running, config⟩
  obtain ⟨rfl, rfl, rfl, rfl⟩ := Config.mk.inj config
  exact ⟨step_pushReturn here inside, rfl, rfl, rfl, rfl⟩

theorem moves_ret {target : Nat} (fetched : code.instructions[pc]? = some ⟨.ret, .absent⟩) :
    Moves code memorySize 1 ⟨pc, stack, target :: returns, state⟩
      ⟨target, stack, returns, state⟩ := by
  apply moves_of_effect (fun machine => { machine with
    steps := machine.steps + 1, pc := target, returns }) fetched
  rintro machine here ⟨rfl, rfl, running, config⟩
  obtain ⟨rfl, rfl, top, rfl⟩ := Config.mk.inj config
  exact ⟨step_ret here top, rfl, rfl, rfl, rfl⟩

theorem observe_steps (machine : Machine) (steps : Nat) :
    { machine with steps }.observe = machine.observe := rfl

theorem readNumber_apply (machine : Machine) :
    readNumber machine = match machine.observe.takeNumber.1 with
      | .ok value => .ok value { machine with input := machine.input.take.2 }
      | .error fault =>
        .error (.execution fault machine.pc) { machine with input := machine.input.take.2 } := by
  have first := machine.input.take_spec.1
  simp only [readNumber, bind_apply, get_apply, modify_apply]
  rw [first]
  simp only [observe, Core.State.takeNumber]
  cases machine.input.remaining with
  | nil => rfl
  | cons word rest =>
    simp only [List.head?_cons]
    cases Numeral.real? word <;> rfl

theorem observe_take (machine : Machine) :
    { machine with input := machine.input.take.2 }.observe = machine.observe.takeNumber.2 := by
  have rest := machine.input.take_spec.2
  simp only [observe, Core.State.takeNumber, rest]
  cases machine.input.remaining with
  | nil => rfl
  | cons word rest => simp only [List.tail_cons]; cases Numeral.real? word <;> rfl

theorem moves_read {value : Binary64} {after : Core.State}
    (fetched : code.instructions[pc]? = some ⟨.read, .absent⟩)
    (taken : state.takeNumber = (.ok value, after)) :
    Moves code memorySize 1 ⟨pc, stack, returns, state⟩
      ⟨pc + 1, value :: stack, returns, after⟩ := by
  apply moves_of_effect (fun machine => { machine with
    steps := machine.steps + 1, pc := machine.pc + 1, stack := value :: machine.stack,
    input := machine.input.take.2 }) fetched
  rintro machine here ⟨rfl, rfl, running, config⟩
  obtain ⟨rfl, rfl, rfl, rfl⟩ := Config.mk.inj config
  refine ⟨?_, rfl, rfl, rfl, ?_⟩
  · simp [step, here, perform, readNumber_apply, observe_steps, push, follow, taken]
  · have observed := machine.observe_take
    rw [taken] at observed
    exact congrArg (Config.mk _ _ _) observed

theorem stops_of_read {machine : Machine} {fault : Fault} {final : Core.State}
    (fetched : code.instructions[pc]? = some ⟨.read, .absent⟩)
    (failed : state.takeNumber = (.error fault, final))
    (shown : Shows code memorySize ⟨pc, stack, returns, state⟩ machine) :
    ∃ last, last.status = .failed ∧ last.observe = final ∧
      ∀ limit, resume (limit + 1) machine = .stopped last (some (.execution fault pc)) := by
  obtain ⟨rfl, rfl, running, config⟩ := shown
  obtain ⟨rfl, rfl, rfl, rfl⟩ := Config.mk.inj config
  have stepped : machine.step = .error (.execution fault machine.pc)
      { machine with steps := machine.steps + 1, input := machine.input.take.2 } := by
    simp [step, fetched, perform, readNumber_apply, observe_steps, failed]
  refine ⟨{ machine with
    steps := machine.steps + 1, input := machine.input.take.2, status := .failed }, rfl, ?_, ?_⟩
  · have observed := machine.observe_take
    rw [failed] at observed
    exact observed
  · intro limit
    rw [resume, if_pos running, stepped]
    rfl

theorem stops_of_stop {machine : Machine} (fetched : code.instructions[pc]? = some ⟨.stop, .absent⟩)
    (shown : Shows code memorySize ⟨pc, stack, returns, state⟩ machine) :
    ∃ last, last.status = .halted ∧ last.config = ⟨pc, stack, returns, state⟩ ∧
      ∀ limit, resume (limit + 2) machine = .stopped last none := by
  obtain ⟨rfl, rfl, running, config⟩ := shown
  obtain ⟨rfl, rfl, rfl, rfl⟩ := Config.mk.inj config
  have stepped : machine.step = .ok ()
      { machine with steps := machine.steps + 1, status := .halted } := by
    simp [step, fetched, perform, follow]
  refine ⟨{ machine with steps := machine.steps + 1, status := .halted }, rfl, rfl, ?_⟩
  intro limit
  rw [resume, if_pos running, stepped]
  simp [resume]

end Pascalet.Machine
