import Pascalet.Machine.Run
import Pascalet.Proofs.Execution.Semantics

namespace Pascalet

def Input.remaining (input : Input) : List (List Char) :=
  input.words ++ input.lines.flatMap Text.words

theorem Input.take_spec (input : Input) :
    input.take.1 = input.remaining.head? ∧ input.take.2.remaining = input.remaining.tail := by
  obtain ⟨words, lines⟩ := input
  simp only [take, remaining]
  induction lines generalizing words with
  | nil => cases words <;> simp [takeFrom]
  | cons line rest ih =>
    cases words with
    | nil => simpa [takeFrom] using ih (Text.words line)
    | cons word others => simp [takeFrom]

namespace Machine

/-- The state of the program, as far as a machine shows it. -/
def observe (machine : Machine) : Core.State :=
  { cells := machine.memory.get
    words := machine.input.remaining
    printed := machine.output.toList }

structure Config where
  pc : Nat
  stack : List Binary64
  returns : List Nat
  state : Core.State

def config (machine : Machine) : Config :=
  ⟨machine.pc, machine.stack, machine.returns, machine.observe⟩

/-- A running machine with this code and memory that has reached a configuration. -/
structure Shows (code : Buffer) (memorySize : Nat) (reached : Config) (machine : Machine) : Prop where
  code : machine.code = code
  memorySize : machine.memory.size = memorySize
  running : machine.status = .running
  config : machine.config = reached

inductive Steps : Nat → Machine → Machine → Prop where
  | none (machine : Machine) : Steps 0 machine machine
  | more {count : Nat} {machine next last : Machine} (running : machine.status = .running)
    (stepped : machine.step = .ok () next) (rest : Steps count next last) :
    Steps (count + 1) machine last

theorem Steps.trans {first second : Nat} {start middle last : Machine}
    (begun : Steps first start middle) (ended : Steps second middle last) :
    Steps (first + second) start last := by
  induction begun with
  | none machine => simpa using ended
  | more running stepped rest ih =>
    rw [Nat.add_right_comm]
    exact .more running stepped (ih ended)

theorem Steps.resume_add {count : Nat} {start last : Machine} (steps : Steps count start last)
    (limit : Nat) : resume (count + limit) start = resume limit last := by
  induction steps with
  | none machine => rw [Nat.zero_add]
  | more running stepped rest ih =>
    rw [Nat.add_right_comm, resume, if_pos running, stepped]
    exact ih

theorem resume_add_of_stopped {limit : Nat} {start last : Machine} {error : Option MachineError}
    (stopped : resume limit start = .stopped last error) (more : Nat) :
    resume (limit + more) start = .stopped last error := by
  induction limit generalizing start with
  | zero => cases stopped
  | succ limit ih =>
    rw [Nat.add_right_comm]
    rw [resume] at stopped ⊢
    split at stopped
    next running =>
      rw [if_pos running]
      split at stopped
      next stepped => exact ih stopped
      next failed => exact stopped
    next halted =>
      rw [if_neg halted]
      exact stopped

theorem Steps.of_stopped {count limit : Nat} {start middle last : Machine}
    {error : Option MachineError} (steps : Steps count start middle)
    (stopped : resume limit start = .stopped last error) :
    ∃ remaining, limit = count + remaining ∧ resume remaining middle = .stopped last error := by
  by_cases short : limit ≤ count
  · obtain ⟨missing, rfl⟩ := Nat.exists_eq_add_of_le short
    have unfinished := steps.resume_add 0
    rw [Nat.add_zero, resume_add_of_stopped stopped missing] at unfinished
    cases unfinished
  · obtain ⟨remaining, rfl⟩ := Nat.exists_eq_add_of_le (Nat.le_of_not_le short)
    exact ⟨remaining, rfl, steps.resume_add remaining ▸ stopped⟩

/-- Every machine at the first configuration gets to the last one. -/
def Moves (code : Buffer) (memorySize count : Nat) (first last : Config) : Prop :=
  ∀ machine, Shows code memorySize first machine →
    ∃ moved, Steps count machine moved ∧ Shows code memorySize last moved

variable {code : Buffer} {memorySize : Nat}

theorem Moves.none (reached : Config) : Moves code memorySize 0 reached reached :=
  fun machine shows' => ⟨machine, .none machine, shows'⟩

theorem Moves.trans {first second : Nat} {start middle last : Config}
    (begun : Moves code memorySize first start middle)
    (ended : Moves code memorySize second middle last) :
    Moves code memorySize (first + second) start last := by
  intro machine shown
  obtain ⟨reached, steps, shownMiddle⟩ := begun machine shown
  obtain ⟨moved, more, shownLast⟩ := ended reached shownMiddle
  exact ⟨moved, steps.trans more, shownLast⟩

theorem Moves.of_stopped {count limit : Nat} {start last : Config} {machine final : Machine}
    {error : Option MachineError} (moves : Moves code memorySize count start last)
    (shown : Shows code memorySize start machine)
    (stopped : resume limit machine = .stopped final error) :
    ∃ moved remaining, limit = count + remaining ∧ Shows code memorySize last moved ∧
      resume remaining moved = .stopped final error := by
  obtain ⟨moved, steps, shownLast⟩ := moves machine shown
  obtain ⟨remaining, split, later⟩ := steps.of_stopped stopped
  exact ⟨moved, remaining, split, shownLast, later⟩

theorem Moves.cast {count sameCount pc samePc : Nat} {stack : List Binary64} {returns : List Nat}
    {state : Core.State} {start : Config}
    (moves : Moves code memorySize count start ⟨pc, stack, returns, state⟩)
    (counts : count = sameCount) (places : pc = samePc) :
    Moves code memorySize sameCount start ⟨samePc, stack, returns, state⟩ := by
  rw [← counts, ← places]
  exact moves

theorem moves_of_step {first last : Config}
    (step : ∀ machine, Shows code memorySize first machine →
      ∃ moved, machine.step = .ok () moved ∧ Shows code memorySize last moved) :
    Moves code memorySize 1 first last := by
  intro machine shown
  obtain ⟨moved, stepped, shownLast⟩ := step machine shown
  exact ⟨moved, .more shown.running stepped (.none moved), shownLast⟩

end Machine

end Pascalet
