import Pascalet.Proofs.Binary64.Integer
import Pascalet.Proofs.Code.ObjectText
import Pascalet.Proofs.Execution.Correctness
import Pascalet.Proofs.Machine.Control

namespace Pascalet

namespace Machine

/-- What can be asked of a machine. A run is cut off behind a number of steps, so the machines in the
middle of a run are among the results. -/
inductive Operation where
  | step
  | run (limit : Nat)
  | reset
  | push (value : Binary64)
  | pop
  | read

def outcome {α : Type} : EStateM.Result MachineError Machine α → Machine × Option MachineError
  | .ok _ after => (after, none)
  | .error error after => (after, some error)

def Progress.outcome : Progress → Machine × Option MachineError
  | .unfinished after => (after, none)
  | .stopped after error? => (after, error?)

def Operation.apply (machine : Machine) : Operation → Machine × Option MachineError
  | .step => outcome machine.step
  | .run limit => (machine.run limit).outcome
  | .reset => (machine.reset, none)
  | .push value => outcome (machine.push value)
  | .pop => outcome machine.pop
  | .read => outcome machine.readNumber

/-- The machine behind a sequence of operations. An error does not end the sequence. -/
def applyAll (machine : Machine) (operations : List Operation) : Machine :=
  operations.foldl (fun machine operation => (operation.apply machine).1) machine

def Operation.Executes (operation : Operation) : Prop :=
  operation = .step ∨ ∃ limit, operation = .run limit

/-- The error is one that an operation can end with. Integers are too large for a number from the
middle between the largest finite one and `2 ^ 1024` on. -/
def Operation.MayRaise (operation : Operation) (after : Machine) (error : MachineError) : Prop :=
  (∃ fault, error = .execution fault after.pc) ∨
    error = .constantTooLarge ∧ operation.Executes ∧
      ∃ value : Int, after.code.instructions[after.pc]? = some ⟨.constant, .integer value⟩ ∧
        2 ^ 1024 - 2 ^ 970 ≤ value.natAbs

/-- A machine for some code and some number of cells that points to nothing outside of them. -/
structure InBounds (code : Buffer) (memorySize : Int) (machine : Machine) : Prop where
  sameCode : machine.code = code
  sameSize : (machine.memory.size : Int) = memorySize
  written : ∀ address ∈ machine.memory.written, address < machine.memory.size
  pc : machine.pc ≤ code.size
  returns : ∀ entry ∈ machine.returns, entry ≤ code.size

/-- The next step takes an instruction of the code or, behind the last one, none; and it uses a cell of
the memory, or fails before it uses any. -/
structure AccessesInside (machine : Machine) : Prop where
  fetch : machine.pc < machine.code.size ∨
    machine.pc = machine.code.size ∧ machine.step = .ok () { machine with status := .halted }
  cell : ∀ instruction, machine.code.instructions[machine.pc]? = some instruction →
    instruction.opcode.hasAddress = true →
    (∃ address : Nat, instruction.argument = .integer address ∧ address < machine.memory.size) ∨
      machine.step = .error (.execution (.addressOutOfRange instruction.argument) machine.pc)
        { machine with steps := machine.steps + 1 }

def Frame.Bounded (frame : Frame) : Prop :=
  frame.pc ≤ frame.code.size ∧ ∀ entry ∈ frame.returns, entry ≤ frame.code.size

theorem Transfer.bounded {frame next : Frame} (moved : Transfer frame next)
    (bounded : frame.Bounded) : next.Bounded := by
  obtain ⟨pcInside, returnsInside⟩ := bounded
  cases moved with
  | halt => exact ⟨pcInside, returnsInside⟩
  | next fetched =>
    have inside : frame.pc < frame.code.size := (Array.getElem?_eq_some_iff.mp fetched).1
    exact ⟨inside, returnsInside⟩
  | jump _ _ inside => exact ⟨inside, returnsInside⟩
  | pushReturn fetched targetInside =>
    have inside : frame.pc < frame.code.size := (Array.getElem?_eq_some_iff.mp fetched).1
    refine ⟨inside, ?_⟩
    intro entry member
    rcases List.mem_cons.mp member with rfl | old
    · exact targetInside
    · exact returnsInside entry old
  | ret _ top =>
    rw [top] at returnsInside
    have targetInside := returnsInside _ List.mem_cons_self
    exact ⟨targetInside, fun entry old => returnsInside entry (List.mem_cons_of_mem _ old)⟩

variable {code : Buffer} {memorySize : Int} {machine after : Machine}

namespace InBounds

theorem of_frame {frame : Frame} (framed : after.frame = frame) (bounded : frame.Bounded)
    (sameCode : frame.code = code) (sameSize : (frame.memorySize : Int) = memorySize)
    (inside : after.memory.Inside) : after.InBounds code memorySize := by
  subst framed sameCode
  exact ⟨rfl, sameSize, inside, bounded.1, bounded.2⟩

theorem of_create {input : Input} (created : create code memorySize input = .ok machine) :
    machine.InBounds code memorySize := by
  obtain ⟨natural, _, rfl⟩ := create_eq_ok_iff.mp created
  exact ⟨rfl, Int.toNat_of_nonneg natural, Memory.inside_blank _, Nat.zero_le _, by simp⟩

theorem bounded (inBounds : machine.InBounds code memorySize) : machine.frame.Bounded := by
  obtain ⟨rfl, _, _, pc, returns⟩ := inBounds
  exact ⟨pc, returns⟩

theorem keep (inBounds : machine.InBounds code memorySize) (framed : after.frame = machine.frame)
    (inside : after.memory.Inside) : after.InBounds code memorySize :=
  of_frame framed inBounds.bounded inBounds.sameCode inBounds.sameSize inside

theorem steady {α : Type} {post : α → Prop} {action : Action α} {operation : Operation}
    (inBounds : machine.InBounds code memorySize)
    (kept : Steady ⟨.stop, .absent⟩ machine.frame post action) :
    (outcome (action machine)).1.InBounds code memorySize ∧
      ∀ error ∈ (outcome (action machine)).2,
        operation.MayRaise (outcome (action machine)).1 error := by
  have result := kept machine rfl inBounds.written
  cases ended : action machine with
  | ok value after =>
    rw [ended] at result
    exact ⟨inBounds.keep result.1 result.2.1, by simp [outcome]⟩
  | error error after =>
    rw [ended] at result
    obtain ⟨framed, inside, permitted⟩ := result
    refine ⟨inBounds.keep framed inside, ?_⟩
    rintro raised ⟨⟩
    rcases permitted with ⟨fault, rfl⟩ | ⟨_, value, impossible, _⟩
    · exact .inl ⟨fault, congrArg (MachineError.execution fault) (congrArg Frame.pc framed).symm⟩
    · cases impossible

theorem step (inBounds : machine.InBounds code memorySize) :
    (outcome machine.step).1.InBounds code memorySize ∧
      ∀ error ∈ (outcome machine.step).2, Operation.step.MayRaise (outcome machine.step).1 error := by
  have result := ends_step inBounds.written
  cases ended : machine.step with
  | ok value after =>
    rw [ended] at result
    obtain ⟨moved, inside⟩ := result
    have bounded := moved.bounded inBounds.bounded
    obtain ⟨sameCode, sameSize⟩ := moved.keeps
    have cells : (after.frame.memorySize : Int) = memorySize := by
      rw [sameSize]
      exact inBounds.sameSize
    exact ⟨of_frame rfl bounded (sameCode.trans inBounds.sameCode) cells inside, by simp [outcome]⟩
  | error error after =>
    rw [ended] at result
    obtain ⟨framed, inside, instruction, fetched, permitted⟩ := result
    refine ⟨inBounds.keep framed inside, ?_⟩
    rintro raised ⟨⟩
    have samePc : after.pc = machine.pc := congrArg Frame.pc framed
    have sameCode : after.code = machine.code := congrArg Frame.code framed
    rcases permitted with ⟨fault, rfl⟩ | ⟨rfl, value, rfl, tooLarge⟩
    · exact .inl ⟨fault, congrArg (MachineError.execution fault) samePc.symm⟩
    · refine .inr ⟨rfl, .inl rfl, value, ?_, (Binary64.ofInt?_eq_none_iff value).mp tooLarge⟩
      change after.code.instructions[after.pc]? = _
      rw [sameCode, samePc]
      exact fetched

theorem markFailed (inBounds : machine.InBounds code memorySize) (error : MachineError) :
    (machine.markFailed error).InBounds code memorySize := by
  cases error with
  | execution fault pc => exact inBounds.keep rfl inBounds.written
  | constantTooLarge => exact inBounds

theorem resume (limit total : Nat) {machine : Machine}
    (inBounds : machine.InBounds code memorySize) :
    (machine.resume limit).outcome.1.InBounds code memorySize ∧
      ∀ error ∈ (machine.resume limit).outcome.2,
        (Operation.run total).MayRaise (machine.resume limit).outcome.1 error := by
  induction limit generalizing machine with
  | zero => exact ⟨inBounds, by simp [Machine.resume, Progress.outcome]⟩
  | succ limit ih =>
    unfold Machine.resume
    split
    next =>
      have stepped := inBounds.step
      cases ended : machine.step with
      | ok value after =>
        rw [ended] at stepped
        exact ih stepped.1
      | error error after =>
        rw [ended] at stepped
        obtain ⟨afterBounds, raised⟩ := stepped
        refine ⟨afterBounds.markFailed error, ?_⟩
        rintro same ⟨⟩
        have last : Operation.step.MayRaise after error := raised error rfl
        rcases last with ⟨fault, rfl⟩ | ⟨rfl, _, tooLarge⟩
        · exact .inl ⟨fault, rfl⟩
        · exact .inr ⟨rfl, .inr ⟨total, rfl⟩, tooLarge⟩
    next => exact ⟨inBounds, by simp [Progress.outcome]⟩

theorem apply (inBounds : machine.InBounds code memorySize) (operation : Operation) :
    (operation.apply machine).1.InBounds code memorySize ∧
      ∀ error ∈ (operation.apply machine).2,
        operation.MayRaise (operation.apply machine).1 error := by
  cases operation with
  | step => exact inBounds.step
  | run limit => exact resume limit limit (inBounds.keep rfl inBounds.written)
  | reset =>
    have noReturns : ∀ entry ∈ machine.reset.returns, entry ≤ code.size := by simp [Machine.reset]
    exact ⟨⟨inBounds.sameCode, inBounds.sameSize, Memory.inside_blank _, Nat.zero_le _, noReturns⟩,
      by simp [Operation.apply]⟩
  | push value => exact inBounds.steady (steady_push value)
  | pop => exact inBounds.steady steady_pop
  | read => exact inBounds.steady steady_readNumber

theorem applyAll (operations : List Operation) {machine : Machine}
    (inBounds : machine.InBounds code memorySize) :
    (machine.applyAll operations).InBounds code memorySize := by
  induction operations generalizing machine with
  | nil => exact inBounds
  | cons operation rest ih => exact ih (inBounds.apply operation).1

theorem accessesInside (inBounds : machine.InBounds code memorySize) : machine.AccessesInside := by
  obtain ⟨rfl, _, _, pcInside, _⟩ := inBounds
  refine ⟨?_, ?_⟩
  · rcases Nat.lt_or_eq_of_le pcInside with inside | behind
    · exact .inl inside
    · have nothing : machine.code.instructions[machine.pc]? = none :=
        Array.getElem?_eq_none (Nat.le_of_eq behind.symm)
      exact .inr ⟨behind, step_of_none nothing⟩
  · intro instruction fetched addresses
    have attempted := addressOf_cases { machine with steps := machine.steps + 1 } instruction.argument
    rcases attempted with isCell | failed
    · exact .inl isCell
    · right
      rw [step_of_some fetched]
      obtain ⟨opcode, argument⟩ := instruction
      cases opcode with
      | load | store | pass => simp [perform, failed]
      | _ => cases addresses

end InBounds

end Machine

def Buffer.HasTextConstants (code : Buffer) : Prop :=
  ∀ (index : Nat) (value : Int), code.instructions[index]? ≠ some ⟨.constant, .integer value⟩

theorem ObjectText.hasTextConstants {text : String} {code : Buffer} (done : read text = .ok code) :
    code.HasTextConstants := by
  intro index value fetched
  have member := Array.mem_toList_iff.mpr (Array.mem_of_getElem? fetched)
  have writable := (writable_of_read done).2 _ member
  cases writable with
  | integer takes => cases takes

theorem Program.hasTextConstants {source : String} {program : Program}
    (compiled : compile source = .ok program) : program.code.HasTextConstants := by
  intro index value fetched
  obtain ⟨tree, spells⟩ := (exists_spells_of_compile compiled).2
  obtain ⟨core, context, _, _, executable⟩ := executable_of_compile compiled spells
  have sound := (executable context.cells (Nat.le_refl _)).sound _ (Array.mem_of_getElem? fetched)
  obtain ⟨text, isText, _⟩ := sound
  cases isText

/-- For all code, all sizes of memory that a machine can be built with, all input and all operations
that came before: the machine points to nothing outside of its code and its memory, and an operation
raises no error but a fault of execution or that of an integer constant that is too large. In code
that was read or compiled there is no such constant. -/
theorem Machine.operations_stay_in_bounds {code : Buffer} {memorySize : Int} {input : Input}
    {first : Machine} (created : create code memorySize input = .ok first)
    (operations : List Operation) :
    let machine := first.applyAll operations
    machine.InBounds code memorySize ∧ machine.AccessesInside ∧
    (∀ operation error after, Operation.apply machine operation = (after, some error) →
      operation.MayRaise after error) ∧
    ((∃ text, ObjectText.read text = .ok code) ∨
        (∃ source program, Program.compile source = .ok program ∧ program.code = code) →
      ∀ operation error after, Operation.apply machine operation = (after, some error) →
        ∃ fault, error = .execution fault after.pc) := by
  intro machine
  have inBounds : machine.InBounds code memorySize := (InBounds.of_create created).applyAll operations
  have raises : ∀ operation error after, Operation.apply machine operation = (after, some error) →
      after.InBounds code memorySize ∧ operation.MayRaise after error := by
    intro operation error after applied
    have kept := inBounds.apply operation
    rw [applied] at kept
    exact ⟨kept.1, kept.2 error rfl⟩
  refine ⟨inBounds, inBounds.accessesInside, ?_, ?_⟩
  · intro operation error after applied
    exact (raises operation error after applied).2
  · intro origin operation error after applied
    have texts : code.HasTextConstants := by
      rcases origin with ⟨text, done⟩ | ⟨source, program, compiled, rfl⟩
      · exact ObjectText.hasTextConstants done
      · exact Program.hasTextConstants compiled
    obtain ⟨afterBounds, mayRaise⟩ := raises operation error after applied
    rcases mayRaise with execution | ⟨_, _, value, fetched, _⟩
    · exact execution
    · rw [afterBounds.sameCode] at fetched
      exact absurd fetched (texts after.pc value)

theorem Machine.operations_stay_in_bounds_hostile :
    (∃ code first, code = Buffer.ofInstructions [⟨.constant, .integer (-(10 ^ 400 : Nat))⟩,
        ⟨.store, .integer (-1)⟩, ⟨.pushReturn, .text "0"⟩, ⟨.ret, .absent⟩,
        ⟨.other "HALT", .integer 5⟩] ∧
      create code 3 (.ofText "1 x") = .ok first ∧
      InBounds code 3 (first.applyAll [.step, .pop, .read, .run 9, .push .zero, .reset]) ∧
      ∀ operation error after,
        Operation.apply (first.applyAll [.step, .pop]) operation = (after, some error) →
        operation.MayRaise after error) ∧
    ∃ code first, ObjectText.read "CRVL -1\nPUSHER 3\nRTPR\n" = .ok code ∧
      create code 0 (.ofText "") = .ok first ∧
      ∀ operation error after,
        Operation.apply (first.applyAll [.step, .run 5]) operation = (after, some error) →
        ∃ fault, error = .execution fault after.pc := by
  constructor
  · refine ⟨_, _, rfl, create_eq_ok_iff.mpr ⟨by decide, by decide, rfl⟩, ?_, ?_⟩
    · exact (operations_stay_in_bounds (create_eq_ok_iff.mpr ⟨by decide, by decide, rfl⟩) _).1
    · exact (operations_stay_in_bounds (create_eq_ok_iff.mpr ⟨by decide, by decide, rfl⟩) _).2.2.1
  · have checked : (ObjectText.read "CRVL -1\nPUSHER 3\nRTPR\n").toOption.any
        (fun code => decide (code.nextAddress ≤ 0)) = true := by
      decide +kernel
    obtain ⟨code, done, small⟩ := Program.exists_of_any checked
    obtain ⟨first, created⟩ : ∃ first, create code 0 (.ofText "") = .ok first :=
      ⟨_, create_eq_ok_iff.mpr ⟨Int.le_refl 0, of_decide_eq_true small, rfl⟩⟩
    exact ⟨code, first, done, created,
      (operations_stay_in_bounds created _).2.2.2 (.inl ⟨_, done⟩)⟩

end Pascalet
