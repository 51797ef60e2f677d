import Pascalet.Machine.Run

namespace Pascalet.Machine

section Actions

variable {α β : Type} (machine : Machine)

@[simp]
theorem get_apply : (get : Action Machine) machine = .ok machine machine := rfl

@[simp]
theorem modify_apply (change : Machine → Machine) :
    (modify change : Action Unit) machine = .ok () (change machine) := rfl

@[simp]
theorem pure_apply (value : α) : (pure value : Action α) machine = .ok value machine := rfl

@[simp]
theorem bind_apply (first : Action α) (second : α → Action β) :
    (first >>= second) machine = match first machine with
      | .ok value after => second value after
      | .error error after => .error error after := by
  simp only [bind, EStateM.bind]
  cases first machine <;> rfl

@[simp]
theorem map_apply (change : α → β) (action : Action α) :
    (change <$> action) machine = match action machine with
      | .ok value after => .ok (change value) after
      | .error error after => .error error after := by
  simp only [Functor.map, EStateM.map]
  cases action machine <;> rfl

theorem pop_apply : pop machine = match machine.stack with
    | value :: rest => .ok value { machine with stack := rest }
    | [] => .error (.execution .operandUnderflow machine.pc) machine := by
  simp only [pop, bind_apply, get_apply]
  cases machine.stack <;> rfl

theorem addressOf_apply {address : Nat} (inside : address < machine.memory.size) :
    addressOf (.integer address) machine = .ok address machine := by
  simp [addressOf, inside]

theorem targetOf_apply {target : Nat} (inside : target ≤ machine.code.size) :
    targetOf (.integer target) machine = .ok target machine := by
  simp [targetOf, inside]

theorem addressOf_cases (argument : Argument) :
    (∃ address : Nat, argument = .integer address ∧ address < machine.memory.size) ∨
      addressOf argument machine =
        .error (.execution (.addressOutOfRange argument) machine.pc) machine := by
  cases argument with
  | integer value =>
    by_cases inside : 0 ≤ value ∧ value < machine.memory.size
    · obtain ⟨address, rfl⟩ := Int.eq_ofNat_of_zero_le inside.1
      exact .inl ⟨address, rfl, Int.ofNat_lt.mp inside.2⟩
    · right
      simp only [addressOf, bind_apply, get_apply, inside, ↓reduceIte]
      rfl
  | absent => exact .inr rfl
  | text value => exact .inr rfl

theorem targetOf_cases (argument : Argument) :
    (∃ target : Nat, argument = .integer target ∧ target ≤ machine.code.size) ∨
      targetOf argument machine =
        .error (.execution (.targetOutOfRange argument) machine.pc) machine := by
  cases argument with
  | integer value =>
    by_cases inside : 0 ≤ value ∧ value ≤ machine.code.size
    · obtain ⟨target, rfl⟩ := Int.eq_ofNat_of_zero_le inside.1
      exact .inl ⟨target, rfl, Int.ofNat_le.mp inside.2⟩
    · right
      simp only [targetOf, bind_apply, get_apply, inside, ↓reduceIte]
      rfl
  | absent => exact .inr rfl
  | text value => exact .inr rfl

theorem constantOf_apply {text : String} {value : Binary64}
    (number : Numeral.real? text.toList = some value) :
    constantOf (.text text) machine = .ok value machine := by
  have read : constantOf (.text text) = pure value := by
    unfold constantOf
    dsimp only
    rw [number]
  rw [read]
  rfl

end Actions

def behind (machine : Machine) (count : Nat) (stack : List Binary64) : Machine :=
  { machine with pc := machine.pc + count, steps := machine.steps + count, stack }

variable {machine : Machine} {rest : List Binary64}

theorem step_note {instruction : Instruction}
    (notes : instruction.opcode = .start ∨ instruction.opcode = .reserve)
    (here : machine.code.instructions[machine.pc]? = some instruction) :
    machine.step = .ok () (machine.behind 1 machine.stack) := by
  rcases notes with opcode | opcode <;> simp [step, here, perform, opcode, follow, behind]

theorem step_release {count : Nat}
    (here : machine.code.instructions[machine.pc]? = some ⟨.release, .integer count⟩) :
    machine.step =
      .ok () { machine.behind 1 machine.stack with released := machine.released + count } := by
  simp [step, here, perform, cellCountOf, follow, behind]

theorem step_constant {text : String} {value : Binary64}
    (here : machine.code.instructions[machine.pc]? = some ⟨.constant, .text text⟩)
    (number : Numeral.real? text.toList = some value) :
    machine.step = .ok () (machine.behind 1 (value :: machine.stack)) := by
  simp [step, here, perform, constantOf_apply _ number, push, follow, behind]

theorem step_load {address : Nat} {opcode : Opcode} (loads : opcode = .load ∨ opcode = .pass)
    (here : machine.code.instructions[machine.pc]? = some ⟨opcode, .integer address⟩)
    (inside : address < machine.memory.size) :
    machine.step = .ok () (machine.behind 1 (machine.memory.get address :: machine.stack)) := by
  rcases loads with rfl | rfl <;>
    simp [step, here, perform, addressOf_apply, loadCell, push, follow, inside, behind]

theorem step_store {address : Nat} {value : Binary64}
    (here : machine.code.instructions[machine.pc]? = some ⟨.store, .integer address⟩)
    (top : machine.stack = value :: rest) (inside : address < machine.memory.size) :
    machine.step =
      .ok () { machine.behind 1 rest with memory := machine.memory.set address value } := by
  simp [step, here, perform, addressOf_apply, storeCell, pop_apply, follow, inside, top, behind]

theorem step_arithmetic {operator : Operator} {left right : Binary64}
    (here : machine.code.instructions[machine.pc]? = some ⟨.arithmetic operator, .absent⟩)
    (top : machine.stack = right :: left :: rest) :
    machine.step = .ok () (machine.behind 1 (operator.apply left right :: rest)) := by
  simp [step, here, perform, pop_apply, push, follow, top, behind]

theorem step_negate {operand : Binary64}
    (here : machine.code.instructions[machine.pc]? = some ⟨.negate, .absent⟩)
    (top : machine.stack = operand :: rest) :
    machine.step = .ok () (machine.behind 1 (-operand :: rest)) := by
  simp [step, here, perform, pop_apply, push, follow, top, behind]

theorem step_compare {relation : Relation} {left right : Binary64}
    (here : machine.code.instructions[machine.pc]? = some ⟨.compare relation, .absent⟩)
    (top : machine.stack = right :: left :: rest) :
    machine.step = .ok () (machine.behind 1 (relation.apply left right :: rest)) := by
  simp [step, here, perform, pop_apply, push, follow, top, behind]

theorem step_write {value : Binary64}
    (here : machine.code.instructions[machine.pc]? = some ⟨.write, .absent⟩)
    (top : machine.stack = value :: rest) :
    machine.step =
      .ok () { machine.behind 1 rest with output := machine.output.push value.printed } := by
  simp [step, here, perform, pop_apply, follow, top, behind]

theorem step_jump {target : Nat} {opcode : Opcode} (jumps : opcode = .jump ∨ opcode = .call)
    (here : machine.code.instructions[machine.pc]? = some ⟨opcode, .integer target⟩)
    (inside : target ≤ machine.code.size) :
    machine.step = .ok () { machine with steps := machine.steps + 1, pc := target } := by
  rcases jumps with rfl | rfl <;> simp [step, here, perform, targetOf_apply, follow, inside]

theorem step_jumpIfZero {target : Nat} {value : Binary64}
    (here : machine.code.instructions[machine.pc]? = some ⟨.jumpIfZero, .integer target⟩)
    (top : machine.stack = value :: rest) (inside : target ≤ machine.code.size) :
    machine.step = .ok () { machine with
      steps := machine.steps + 1, stack := rest,
      pc := if value.isZero then target else machine.pc + 1 } := by
  cases zero : value.isZero <;>
    simp [step, here, perform, targetOf_apply, pop_apply, follow, inside, top, zero]

theorem step_pushReturn {target : Nat}
    (here : machine.code.instructions[machine.pc]? = some ⟨.pushReturn, .integer target⟩)
    (inside : target ≤ machine.code.size) :
    machine.step =
      .ok () { machine.behind 1 machine.stack with returns := target :: machine.returns } := by
  simp [step, here, perform, targetOf_apply, follow, inside, behind]

theorem step_ret {target : Nat} {others : List Nat}
    (here : machine.code.instructions[machine.pc]? = some ⟨.ret, .absent⟩)
    (top : machine.returns = target :: others) :
    machine.step = .ok () { machine with
      steps := machine.steps + 1, pc := target, returns := others } := by
  simp [step, here, perform, follow, top]

end Pascalet.Machine
