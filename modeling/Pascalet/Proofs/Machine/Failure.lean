import Pascalet.Proofs.Machine.Surroundings

namespace Pascalet

def Opcode.takesPair : Opcode → Bool
  | arithmetic _ | compare _ => true
  | _ => false

namespace Machine

def Inspects {α : Type} (action : Action α) : Prop :=
  ∀ machine, match action machine with
    | .ok _ after | .error _ after => after = machine

def Succeeds {α : Type} (action : Action α) : Prop :=
  ∀ machine, ∃ value after, action machine = .ok value after

/-- An action that fails only before it has changed anything. -/
def Atomic {α : Type} (action : Action α) : Prop :=
  ∀ machine error after, action machine = .error error after → after = machine

section Actions

variable {α β : Type}

theorem Succeeds.atomic {action : Action α} (succeeds : Succeeds action) : Atomic action := by
  intro machine error after failed
  obtain ⟨value, reached, done⟩ := succeeds machine
  rw [done] at failed
  cases failed

theorem failed_of_bind {action : Action α} {next : α → Action β} {machine after : Machine}
    {error : MachineError} (failed : (action >>= next) machine = .error error after) :
    action machine = .error error after ∨
      ∃ value middle, action machine = .ok value middle ∧ next value middle = .error error after := by
  rw [bind_apply] at failed
  cases result : action machine with
  | ok value middle =>
    rw [result] at failed
    exact .inr ⟨value, middle, rfl, failed⟩
  | error raised middle =>
    rw [result] at failed
    cases failed
    exact .inl rfl

theorem Inspects.bind {action : Action α} {next : α → Action β} (first : Inspects action)
    (second : ∀ value, Atomic (next value)) : Atomic (action >>= next) := by
  intro machine error after failed
  have inspected := first machine
  rcases failed_of_bind failed with here | ⟨value, middle, done, behind⟩
  · rw [here] at inspected
    exact inspected
  · rw [done] at inspected
    have same : middle = machine := inspected
    subst same
    exact second value middle error after behind

theorem Atomic.bind {action : Action α} {next : α → Action β} (first : Atomic action)
    (second : ∀ value, Succeeds (next value)) : Atomic (action >>= next) := by
  intro machine error after failed
  rcases failed_of_bind failed with here | ⟨value, middle, _, behind⟩
  · exact first machine error after here
  · obtain ⟨last, reached, done⟩ := second value middle
    rw [done] at behind
    cases behind

theorem Succeeds.bind {action : Action α} {next : α → Action β} (first : Succeeds action)
    (second : ∀ value, Succeeds (next value)) : Succeeds (action >>= next) := by
  intro machine
  obtain ⟨value, middle, done⟩ := first machine
  obtain ⟨last, after, doneToo⟩ := second value middle
  exact ⟨last, after, by rw [bind_apply, done]; exact doneToo⟩

theorem succeeds_pure (value : α) : Succeeds (pure value : Action α) :=
  fun machine => ⟨value, machine, rfl⟩

theorem succeeds_modify (change : Machine → Machine) : Succeeds (modify change : Action PUnit) :=
  fun machine => ⟨⟨⟩, change machine, rfl⟩

theorem succeeds_loadCell (address : Nat) : Succeeds (loadCell address) :=
  fun _ => ⟨_, _, rfl⟩

theorem Inspects.atomic {action : Action α} (inspects : Inspects action) : Atomic action := by
  intro machine error after failed
  have inspected := inspects machine
  rw [failed] at inspected
  exact inspected

theorem atomic_pop : Atomic pop := by
  intro machine error after failed
  rw [pop_apply] at failed
  cases stack : machine.stack with
  | nil =>
    rw [stack] at failed
    cases failed
    rfl
  | cons value rest =>
    rw [stack] at failed
    cases failed

theorem inspects_pure (value : α) : Inspects (pure value : Action α) :=
  fun _ => rfl

theorem inspects_throw (error : MachineError) : Inspects (throw error : Action α) :=
  fun _ => rfl

theorem inspects_fail (fault : Fault) : Inspects (fail fault : Action α) :=
  fun _ => rfl

theorem inspects_get : Inspects (get : Action Machine) :=
  fun _ => rfl

theorem inspects_addressOf (argument : Argument) : Inspects (addressOf argument) := by
  intro machine
  rcases addressOf_cases machine argument with ⟨address, rfl, inside⟩ | failed
  · rw [addressOf_apply machine inside]
  · rw [failed]

theorem inspects_targetOf (argument : Argument) : Inspects (targetOf argument) := by
  intro machine
  rcases targetOf_cases machine argument with ⟨target, rfl, inside⟩ | failed
  · rw [targetOf_apply machine inside]
  · rw [failed]

theorem inspects_cellCountOf (argument : Argument) : Inspects (cellCountOf argument) := by
  cases argument with
  | integer value =>
    unfold cellCountOf
    dsimp only
    split
    · exact inspects_pure _
    · exact inspects_fail _
  | absent => exact inspects_fail _
  | text value => exact inspects_fail _

theorem inspects_constantOf (argument : Argument) : Inspects (constantOf argument) := by
  cases argument with
  | integer value =>
    unfold constantOf
    dsimp only
    cases Binary64.ofInt? value with
    | some constant => exact inspects_pure constant
    | none => exact inspects_throw _
  | absent => exact inspects_fail _
  | text text =>
    unfold constantOf
    dsimp only
    cases Numeral.real? text.toList with
    | some constant => exact inspects_pure constant
    | none => exact inspects_fail _

/-- An instruction checks its argument first, and then takes one operand at most; only reading and the
taking of a pair can fail with something done. -/
theorem atomic_perform {instruction : Instruction} (single : instruction.opcode.takesPair = false)
    (reads : instruction.opcode ≠ .read) : Atomic (perform instruction) := by
  obtain ⟨opcode, argument⟩ := instruction
  cases opcode with
  | start | stop | reserve => exact (inspects_pure _).atomic
  | constant =>
    apply (inspects_constantOf argument).bind
    intro value
    exact ((succeeds_modify _).bind fun _ => succeeds_pure _).atomic
  | load | pass =>
    apply (inspects_addressOf argument).bind
    intro address
    exact ((succeeds_loadCell address).bind fun _ => succeeds_pure _).atomic
  | store =>
    apply (inspects_addressOf argument).bind
    intro address
    apply atomic_pop.bind
    intro value
    exact (succeeds_modify _).bind fun _ => succeeds_pure _
  | arithmetic | compare => cases single
  | negate | write =>
    apply atomic_pop.bind
    intro operand
    exact (succeeds_modify _).bind fun _ => succeeds_pure _
  | read => exact absurd rfl reads
  | jumpIfZero =>
    apply (inspects_targetOf argument).bind
    intro target
    apply atomic_pop.bind
    intro value
    split
    · exact succeeds_pure _
    · exact succeeds_pure _
  | jump | call =>
    apply (inspects_targetOf argument).bind
    intro target
    exact (inspects_pure _).atomic
  | pushReturn =>
    apply (inspects_targetOf argument).bind
    intro target
    exact ((succeeds_modify _).bind fun _ => succeeds_pure _).atomic
  | ret =>
    apply inspects_get.bind
    intro machine
    cases machine.returns with
    | nil => exact (inspects_fail _).atomic
    | cons target rest => exact ((succeeds_modify _).bind fun _ => succeeds_pure _).atomic
  | release =>
    apply (inspects_cellCountOf argument).bind
    intro count
    exact ((succeeds_modify _).bind fun _ => succeeds_pure _).atomic
  | other name => exact (inspects_fail _).atomic

theorem succeeds_follow (move : Move) : Succeeds (follow move) := by
  cases move <;> exact succeeds_modify _

end Actions

variable {machine after : Machine} {instruction : Instruction} {error : MachineError}

/-- A pair is taken from the right, so a single operand is taken in vain. -/
theorem stack_of_failed_pair (pair : instruction.opcode.takesPair = true)
    (failed : perform instruction machine = .error error after) :
    after = { machine with stack := if machine.stack.length = 1 then [] else machine.stack } := by
  obtain ⟨opcode, argument⟩ := instruction
  cases opcode with
  | arithmetic | compare =>
    rcases stack : machine.stack with _ | ⟨right, _ | ⟨left, rest⟩⟩
    · simp only [perform, bind_apply, pop_apply, stack] at failed
      cases failed
      simp [← stack]
    · simp only [perform, bind_apply, pop_apply, stack] at failed
      cases failed
      rfl
    · simp only [perform, bind_apply, pop_apply, stack] at failed
      cases failed
  | _ => cases pair

/-- What a step that fails at an instruction has left as it was, and what it has not. -/
structure LeftIntact (machine : Machine) (instruction : Instruction) (after : Machine) : Prop where
  code : after.code = machine.code
  pc : after.pc = machine.pc
  memory : after.memory = machine.memory
  returns : after.returns = machine.returns
  released : after.released = machine.released
  status : after.status = machine.status
  output : after.output = machine.output
  steps : after.steps = machine.steps + 1
  input : instruction.opcode ≠ .read → after.input = machine.input
  stack : after.stack =
    if instruction.opcode.takesPair ∧ machine.stack.length = 1 then [] else machine.stack

theorem perform_of_step (fetched : machine.code.instructions[machine.pc]? = some instruction)
    (failed : machine.step = .error error after) :
    perform instruction { machine with steps := machine.steps + 1 } = .error error after := by
  rw [step_of_some fetched] at failed
  rcases failed_of_bind failed with here | ⟨move, middle, _, behind⟩
  · exact here
  · obtain ⟨_, reached, done⟩ := succeeds_follow move middle
    rw [done] at behind
    cases behind

theorem leftIntact_of_step (fetched : machine.code.instructions[machine.pc]? = some instruction)
    (failed : machine.step = .error error after) : machine.LeftIntact instruction after := by
  have performed := perform_of_step fetched failed
  by_cases pair : instruction.opcode.takesPair = true
  · rw [stack_of_failed_pair pair performed]
    constructor <;> simp [pair]
  by_cases reads : instruction.opcode = .read
  · obtain ⟨opcode, argument⟩ := instruction
    cases reads
    simp only [perform, bind_apply, readNumber_eq] at performed
    cases number : numberOf machine.input.take.1 with
    | ok value =>
      rw [number] at performed
      cases performed
    | error fault =>
      rw [number] at performed
      cases performed
      constructor <;> simp [Opcode.takesPair]
  · have single := Bool.eq_false_iff.mpr pair
    rw [atomic_perform single reads _ _ _ performed]
    constructor <;> simp [single]

/-- The instructions that must refuse their argument: it is no address, or no place in the code. -/
def Refuses (machine : Machine) (instruction : Instruction) : Prop :=
  instruction.opcode = .store ∧
      (∀ address : Nat, instruction.argument = .integer address → machine.memory.size ≤ address) ∨
    (instruction.opcode = .jumpIfZero ∨ instruction.opcode = .pushReturn) ∧
      ∀ target : Nat, instruction.argument = .integer target → machine.code.size < target

theorem step_of_refuses (fetched : machine.code.instructions[machine.pc]? = some instruction)
    (refuses : machine.Refuses instruction) :
    ∃ fault, machine.step =
      .error (.execution fault machine.pc) { machine with steps := machine.steps + 1 } := by
  obtain ⟨opcode, argument⟩ := instruction
  rw [step_of_some fetched]
  rcases refuses with ⟨rfl, outside⟩ | ⟨jumps, outside⟩
  · rcases addressOf_cases { machine with steps := machine.steps + 1 } argument with
      ⟨address, rfl, inside⟩ | failed
    · exact absurd inside (Nat.not_lt.mpr (outside address rfl))
    · exact ⟨.addressOutOfRange argument, by simp [perform, failed]⟩
  · rcases targetOf_cases { machine with steps := machine.steps + 1 } argument with
      ⟨target, rfl, inside⟩ | failed
    · exact absurd inside (Nat.not_le.mpr (outside target rfl))
    · rcases jumps with rfl | rfl
      · exact ⟨.targetOutOfRange argument, by simp [perform, failed]⟩
      · exact ⟨.targetOutOfRange argument, by simp [perform, failed]⟩

/-- For all code and all states of a machine: a step that fails does so at an instruction, and leaves
all but its own count, the input of `read` and the single operand of a pair as it was. A store or a
conditional jump with an argument that is no address or no place in the code, and a return address that
is no such place, fail with nothing done at all. -/
theorem failed_step_leaves_intact (machine : Machine) :
    (∀ error after, machine.step = .error error after →
      ∃ instruction, machine.code.instructions[machine.pc]? = some instruction ∧
        machine.LeftIntact instruction after) ∧
    ∀ instruction, machine.code.instructions[machine.pc]? = some instruction →
      machine.Refuses instruction →
      ∃ fault, machine.step =
        .error (.execution fault machine.pc) { machine with steps := machine.steps + 1 } := by
  constructor
  · intro error after failed
    cases fetched : machine.code.instructions[machine.pc]? with
    | none =>
      rw [step_of_none fetched] at failed
      cases failed
    | some instruction => exact ⟨instruction, rfl, leftIntact_of_step fetched failed⟩
  · intro instruction fetched refuses
    exact step_of_refuses fetched refuses

/-- An addition that meets a single operand has taken it, and changed nothing else but the count of
steps; a return address behind the code is refused with nothing done. -/
theorem failed_step_leaves_intact_lone_operand :
    (let adding : Machine :=
      { code := Buffer.ofInstructions [⟨.arithmetic .add, .absent⟩], memory := Memory.blank 2
        stack := [Binary64.zero], returns := [1], steps := 6, input := .ofText "5" }
    adding.step = .error (.execution .operandUnderflow 0) { adding with steps := 7, stack := [] } ∧
      adding.LeftIntact ⟨.arithmetic .add, .absent⟩ { adding with steps := 7, stack := [] }) ∧
    let astray : Machine :=
      { code := Buffer.ofInstructions [⟨.pushReturn, .integer 2⟩], memory := Memory.blank 2
        stack := [Binary64.zero] }
    astray.Refuses ⟨.pushReturn, .integer 2⟩ ∧
      ∃ fault, astray.step = .error (.execution fault 0) { astray with steps := 1 } := by
  constructor
  · intro adding
    have failed : adding.step =
        .error (.execution .operandUnderflow 0) { adding with steps := 7, stack := [] } := rfl
    obtain ⟨instruction, fetched, intact⟩ := (failed_step_leaves_intact adding).1 _ _ failed
    cases fetched
    exact ⟨failed, intact⟩
  · intro astray
    have refuses : astray.Refuses ⟨.pushReturn, .integer 2⟩ := by
      right
      refine ⟨.inr rfl, ?_⟩
      intro target same
      cases same
      decide
    exact ⟨refuses, (failed_step_leaves_intact astray).2 _ rfl refuses⟩

end Machine

end Pascalet
