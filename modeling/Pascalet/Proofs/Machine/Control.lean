import Pascalet.Proofs.Machine.Instruction

namespace Pascalet

def Memory.Inside (memory : Memory) : Prop :=
  ∀ address ∈ memory.written, address < memory.size

namespace Memory

theorem inside_blank (size : Nat) : (blank size).Inside := by
  intro address member
  exact absurd member Std.TreeMap.not_mem_emptyc

theorem Inside.set {memory : Memory} (inside : memory.Inside) (address : Nat) (value : Binary64) :
    (memory.set address value).Inside := by
  intro cell member
  rw [size_set]
  unfold Memory.set at member
  split at member
  next fits =>
    rcases Std.TreeMap.mem_insert.mp member with equal | old
    · rw [← Std.LawfulEqOrd.eq_of_compare equal]
      exact fits
    · exact inside cell old
  next => exact inside cell member

end Memory

namespace Opcode

/-- The opcodes behind which the next instruction follows, as far as no jump is taken. -/
def goesOn : Opcode → Bool
  | stop | jump | call | pushReturn | ret | other _ => false
  | _ => true

def hasTarget : Opcode → Bool
  | jump | jumpIfZero | call => true
  | _ => false

end Opcode

def Instruction.Permits (instruction : Instruction) (pc : Nat) (error : MachineError) : Prop :=
  (∃ fault, error = .execution fault pc) ∨
    error = .constantTooLarge ∧ ∃ value, instruction = ⟨.constant, .integer value⟩ ∧
      Binary64.ofInt? value = none

namespace Machine

structure Frame where
  code : Buffer
  memorySize : Nat
  pc : Nat
  returns : List Nat

def frame (machine : Machine) : Frame :=
  ⟨machine.code, machine.memory.size, machine.pc, machine.returns⟩

def Steady {α : Type} (instruction : Instruction) (frame : Frame) (post : α → Prop)
    (action : Action α) : Prop :=
  ∀ machine : Machine, machine.frame = frame → machine.memory.Inside →
    match action machine with
    | .ok value after => after.frame = frame ∧ after.memory.Inside ∧ post value
    | .error error after =>
      after.frame = frame ∧ after.memory.Inside ∧ instruction.Permits frame.pc error

section Steady

variable {α β : Type} {instruction : Instruction} {frame : Frame}

theorem Steady.bind {middle : α → Prop} {post : β → Prop} {action : Action α}
    {next : α → Action β} (first : Steady instruction frame middle action)
    (second : ∀ value, middle value → Steady instruction frame post (next value)) :
    Steady instruction frame post (action >>= next) := by
  intro machine framed inside
  have begun := first machine framed inside
  rw [bind_apply]
  cases result : action machine with
  | ok value after =>
    rw [result] at begun
    obtain ⟨framed, inside, holds⟩ := begun
    exact second value holds after framed inside
  | error error after =>
    rw [result] at begun
    exact begun

theorem steady_pure {post : α → Prop} {value : α} (holds : post value) :
    Steady instruction frame post (pure value) :=
  fun _ framed inside => ⟨framed, inside, holds⟩

theorem steady_fail {post : α → Prop} (fault : Fault) :
    Steady instruction frame post (fail fault) := by
  rintro machine rfl inside
  exact ⟨rfl, inside, .inl ⟨fault, rfl⟩⟩

theorem steady_get :
    Steady instruction frame (fun machine => machine.frame = frame) get :=
  fun _ framed inside => ⟨framed, inside, framed⟩

theorem steady_push (value : Binary64) :
    Steady instruction frame (fun _ => True) (push value) :=
  fun _ framed inside => ⟨framed, inside, trivial⟩

theorem steady_pop : Steady instruction frame (fun _ => True) pop := by
  rintro machine rfl inside
  rw [pop_apply]
  cases machine.stack with
  | cons value rest => exact ⟨rfl, inside, trivial⟩
  | nil => exact ⟨rfl, inside, .inl ⟨_, rfl⟩⟩

theorem steady_readNumber : Steady instruction frame (fun _ => True) readNumber := by
  rintro machine rfl inside
  rw [readNumber_apply]
  cases machine.observe.takeNumber.1 with
  | ok value => exact ⟨rfl, inside, trivial⟩
  | error fault => exact ⟨rfl, inside, .inl ⟨fault, rfl⟩⟩

theorem steady_addressOf (argument : Argument) :
    Steady instruction frame (fun _ => True) (addressOf argument) := by
  cases argument with
  | integer value =>
    apply steady_get.bind
    rintro machine -
    split
    · exact steady_pure trivial
    · exact steady_fail _
  | absent => exact steady_fail _
  | text value => exact steady_fail _

theorem steady_targetOf (argument : Argument) :
    Steady instruction frame
      (fun target : Nat => argument = .integer target ∧ target ≤ frame.code.size)
      (targetOf argument) := by
  cases argument with
  | integer value =>
    apply steady_get.bind
    rintro machine rfl
    split
    next inside =>
      obtain ⟨target, rfl⟩ := Int.eq_ofNat_of_zero_le inside.1
      exact steady_pure ⟨rfl, Int.ofNat_le.mp inside.2⟩
    next => exact steady_fail _
  | absent => exact steady_fail _
  | text value => exact steady_fail _

theorem steady_cellCountOf (argument : Argument) :
    Steady instruction frame (fun _ => True) (cellCountOf argument) := by
  cases argument with
  | integer value =>
    unfold cellCountOf
    dsimp only
    split
    · exact steady_pure trivial
    · exact steady_fail _
  | absent => exact steady_fail _
  | text value => exact steady_fail _

theorem steady_constantOf (argument : Argument) :
    Steady ⟨.constant, argument⟩ frame (fun _ => True) (constantOf argument) := by
  cases argument with
  | integer value =>
    have read : constantOf (.integer value) =
        (Binary64.ofInt? value).elim (throw .constantTooLarge) pure := rfl
    rw [read]
    cases found : Binary64.ofInt? value with
    | some constant => exact steady_pure trivial
    | none =>
      intro machine framed inside
      exact ⟨framed, inside, .inr ⟨rfl, value, rfl, found⟩⟩
  | absent => exact steady_fail _
  | text text =>
    unfold constantOf
    dsimp only
    cases Numeral.real? text.toList with
    | some constant => exact steady_pure trivial
    | none => exact steady_fail _

theorem steady_loadCell (address : Nat) :
    Steady instruction frame (fun _ => True) (loadCell address) := by
  apply steady_get.bind
  intro machine _
  exact steady_push _

theorem steady_storeCell (address : Nat) (value : Binary64) :
    Steady instruction frame (fun _ => True) (storeCell address value) := by
  rintro machine rfl inside
  refine ⟨?_, inside.set address value, trivial⟩
  simp [Machine.frame]

def Asks (instruction : Instruction) (frame : Frame) : Move → Prop
  | .next => instruction.opcode.goesOn
  | .jump target => instruction.opcode.hasTarget ∧ instruction.argument = .integer target ∧
      target ≤ frame.code.size
  | .halt => instruction.opcode = .stop

theorem steady_perform (instruction : Instruction) (frame : Frame)
    (noReturn : instruction.opcode ≠ .pushReturn ∧ instruction.opcode ≠ .ret) :
    Steady instruction frame (Asks instruction frame) (perform instruction) := by
  obtain ⟨opcode, argument⟩ := instruction
  cases opcode with
  | start | stop | reserve => exact steady_pure rfl
  | constant =>
    apply (steady_constantOf argument).bind
    intro value _
    exact (steady_push value).bind fun _ _ => steady_pure rfl
  | load | pass =>
    apply (steady_addressOf argument).bind
    intro address _
    exact (steady_loadCell address).bind fun _ _ => steady_pure rfl
  | store =>
    apply (steady_addressOf argument).bind
    intro address _
    apply steady_pop.bind
    intro value _
    exact (steady_storeCell address value).bind fun _ _ => steady_pure rfl
  | arithmetic | compare =>
    apply steady_pop.bind
    intro right _
    apply steady_pop.bind
    intro left _
    exact (steady_push _).bind fun _ _ => steady_pure rfl
  | negate =>
    apply steady_pop.bind
    intro operand _
    exact (steady_push _).bind fun _ _ => steady_pure rfl
  | read =>
    apply steady_readNumber.bind
    intro value _
    exact (steady_push value).bind fun _ _ => steady_pure rfl
  | write =>
    apply steady_pop.bind
    rintro value _ machine framed inside
    exact ⟨framed, inside, rfl⟩
  | jumpIfZero =>
    apply (steady_targetOf argument).bind
    intro target jumps
    apply steady_pop.bind
    intro value _
    split
    · exact steady_pure ⟨rfl, jumps⟩
    · exact steady_pure rfl
  | jump | call =>
    apply (steady_targetOf argument).bind
    intro target jumps
    exact steady_pure ⟨rfl, jumps⟩
  | release =>
    apply (steady_cellCountOf argument).bind
    rintro count _ machine framed inside
    exact ⟨framed, inside, rfl⟩
  | pushReturn => exact absurd rfl noReturn.1
  | ret => exact absurd rfl noReturn.2
  | other name => exact steady_fail _

end Steady

/-- The ways from one frame to the next. -/
inductive Transfer (frame : Frame) : Frame → Prop where
  | halt (stops : ∀ instruction ∈ frame.code.instructions[frame.pc]?, instruction.opcode = .stop) :
    Transfer frame frame
  | next {instruction : Instruction}
    (fetched : frame.code.instructions[frame.pc]? = some instruction)
    (goesOn : instruction.opcode.goesOn) :
    Transfer frame { frame with pc := frame.pc + 1 }
  | jump {opcode : Opcode} {target : Nat}
    (fetched : frame.code.instructions[frame.pc]? = some ⟨opcode, .integer target⟩)
    (jumps : opcode.hasTarget) (inside : target ≤ frame.code.size) :
    Transfer frame { frame with pc := target }
  | pushReturn {target : Nat}
    (fetched : frame.code.instructions[frame.pc]? = some ⟨.pushReturn, .integer target⟩)
    (inside : target ≤ frame.code.size) :
    Transfer frame { frame with pc := frame.pc + 1, returns := target :: frame.returns }
  | ret {argument : Argument} {target : Nat} {rest : List Nat}
    (fetched : frame.code.instructions[frame.pc]? = some ⟨.ret, argument⟩)
    (top : frame.returns = target :: rest) :
    Transfer frame { frame with pc := target, returns := rest }

theorem Transfer.keeps {frame next : Frame} (moved : Transfer frame next) :
    next.code = frame.code ∧ next.memorySize = frame.memorySize := by
  cases moved <;> exact ⟨rfl, rfl⟩

def StepEnds (machine : Machine) : EStateM.Result MachineError Machine Unit → Prop
  | .ok _ after => Transfer machine.frame after.frame ∧ after.memory.Inside
  | .error error after => after.frame = machine.frame ∧ after.memory.Inside ∧
      ∃ instruction, machine.code.instructions[machine.pc]? = some instruction ∧
        instruction.Permits machine.pc error

variable {machine : Machine} {instruction : Instruction}

theorem Steady.ends {α : Type} {post : α → Prop} {action : Action α} {next : α → Action Unit}
    (steady : Steady instruction machine.frame post action)
    (fetched : machine.code.instructions[machine.pc]? = some instruction)
    (inside : machine.memory.Inside)
    (rest : ∀ value performed, performed.frame = machine.frame → performed.memory.Inside →
      post value → machine.StepEnds (next value performed)) :
    machine.StepEnds ((action >>= next) { machine with steps := machine.steps + 1 }) := by
  have performed := steady { machine with steps := machine.steps + 1 } rfl inside
  rw [bind_apply]
  cases result : action { machine with steps := machine.steps + 1 } with
  | ok value after =>
    rw [result] at performed
    obtain ⟨framed, inside, holds⟩ := performed
    exact rest value after framed inside holds
  | error error after =>
    rw [result] at performed
    obtain ⟨framed, inside, permitted⟩ := performed
    exact ⟨framed, inside, instruction, fetched, permitted⟩

theorem ends_follow {move : Move} {performed : Machine}
    (fetched : machine.code.instructions[machine.pc]? = some instruction)
    (framed : performed.frame = machine.frame) (inside : performed.memory.Inside)
    (asks : Asks instruction machine.frame move) : machine.StepEnds (follow move performed) := by
  cases move with
  | next =>
    refine ⟨?_, inside⟩
    change Transfer _ { performed.frame with pc := performed.frame.pc + 1 }
    rw [framed]
    exact .next fetched asks
  | jump target =>
    refine ⟨?_, inside⟩
    change Transfer _ { performed.frame with pc := target }
    obtain ⟨opcode, argument⟩ := instruction
    obtain ⟨jumps, rfl, inside⟩ := asks
    rw [framed]
    exact .jump fetched jumps inside
  | halt =>
    refine ⟨?_, inside⟩
    change Transfer _ performed.frame
    rw [framed]
    apply Transfer.halt
    intro found member
    cases fetched.symm.trans member
    exact asks

theorem ends_pushReturn {argument : Argument} (inside : machine.memory.Inside)
    (fetched : machine.code.instructions[machine.pc]? = some ⟨.pushReturn, argument⟩) :
    machine.StepEnds ((perform ⟨.pushReturn, argument⟩ >>= follow)
      { machine with steps := machine.steps + 1 }) := by
  have split : perform ⟨.pushReturn, argument⟩ >>= follow = targetOf argument >>= fun target =>
      modify fun machine => { machine with
        returns := target :: machine.returns, pc := machine.pc + 1 } := by
    funext start
    simp only [perform, bind_apply]
    cases targetOf argument start <;> rfl
  rw [split]
  apply (steady_targetOf argument).ends fetched inside
  rintro target performed framed inside ⟨rfl, bounded⟩
  refine ⟨?_, inside⟩
  change Transfer _ { performed.frame with
    pc := performed.frame.pc + 1, returns := target :: performed.frame.returns }
  rw [framed]
  exact .pushReturn fetched bounded

theorem ends_ret {argument : Argument} (inside : machine.memory.Inside)
    (fetched : machine.code.instructions[machine.pc]? = some ⟨.ret, argument⟩) :
    machine.StepEnds ((perform ⟨.ret, argument⟩ >>= follow)
      { machine with steps := machine.steps + 1 }) := by
  simp only [perform, bind_apply, get_apply]
  cases top : machine.returns with
  | cons target rest => exact ⟨.ret fetched top, inside⟩
  | nil =>
    refine ⟨?_, inside, _, fetched, .inl ⟨_, rfl⟩⟩
    rw [frame, frame, top]

theorem step_of_none (behind : machine.code.instructions[machine.pc]? = none) :
    machine.step = .ok () { machine with status := .halted } := by
  simp [step, behind, follow]

theorem step_of_some (fetched : machine.code.instructions[machine.pc]? = some instruction) :
    machine.step = (perform instruction >>= follow) { machine with steps := machine.steps + 1 } := by
  simp [step, fetched]

theorem ends_step (inside : machine.memory.Inside) : machine.StepEnds machine.step := by
  cases fetched : machine.code.instructions[machine.pc]? with
  | none =>
    rw [step_of_none fetched]
    refine ⟨.halt ?_, inside⟩
    intro instruction member
    cases fetched.symm.trans member
  | some instruction =>
    rw [step_of_some fetched]
    by_cases pushes : instruction.opcode = .pushReturn
    · obtain ⟨opcode, argument⟩ := instruction
      cases pushes
      exact ends_pushReturn inside fetched
    by_cases returns : instruction.opcode = .ret
    · obtain ⟨opcode, argument⟩ := instruction
      cases returns
      exact ends_ret inside fetched
    apply (steady_perform instruction machine.frame ⟨pushes, returns⟩).ends fetched inside
    intro move performed framed inside asks
    exact ends_follow fetched framed inside asks

end Machine

end Pascalet
