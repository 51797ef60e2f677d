import Pascalet.Proofs.Execution.Explanation
import Pascalet.Proofs.Text.Segments

namespace Pascalet.Machine

open Pascalet.Core

variable {code : Buffer} {memorySize cells start : Nat} {entries : List Nat}
  {stack : List Binary64} {returns : List Nat} {state : State}

/-- Variables are noted and procedures are jumped over, from the beginning of the declarations or from
the end of a group of procedures. -/
theorem moves_items (items : List Item) (has : code.Has start (itemsCode entries start items)) :
    (∃ count, Moves code memorySize count ⟨start, stack, returns, state⟩
      ⟨start + itemsSize items, stack, returns, state⟩) ∧
    ∃ count, Moves code memorySize count ⟨start + groupSize items, stack, returns, state⟩
      ⟨start + itemsSize items, stack, returns, state⟩ := by
  induction items generalizing entries start with
  | nil => exact ⟨⟨0, .none _⟩, 0, .none _⟩
  | cons item rest ih =>
    cases item with
    | vars count =>
      obtain ⟨hasReserves, hasRest⟩ := has.append
      rw [length_reserveAll] at hasRest
      obtain ⟨⟨steps, later⟩, _⟩ := ih hasRest
      have moves := (moves_reserves count hasReserves).trans later
      rw [Nat.add_assoc] at moves
      exact ⟨⟨_, moves⟩, _, moves⟩
    | procedure declared =>
      have blockEnd := has.end_le (by rw [length_itemsCode, itemsSize]; omega)
      rw [length_itemsCode] at blockEnd
      obtain ⟨hasFirst, hasRest⟩ := has.append
      have inside : groupSize (.procedure declared :: rest) ≤ itemsSize (.procedure declared :: rest) :=
        groupSize_le_itemsSize _
      rw [List.length_cons, Procedure.length_code, Nat.add_comm declared.size, ← Nat.add_assoc]
        at hasRest
      obtain ⟨_, steps, later⟩ := ih hasRest
      have behind : Moves code memorySize steps
          ⟨start + groupSize (.procedure declared :: rest), stack, returns, state⟩
          ⟨start + itemsSize (.procedure declared :: rest), stack, returns, state⟩ := by
        simpa only [groupSize, itemsSize, Nat.add_assoc] using later
      exact ⟨⟨_, (moves_jump (.inl rfl) hasFirst.cons.1 (by omega)).trans behind⟩, _, behind⟩

def EndsAs (last : Machine) (error : Option MachineError) : Outcome → Prop
  | .finished state => error = none ∧ last.status = .halted ∧ last.observe = state
  | .failed fault state =>
    (∃ pc, error = some (.execution fault pc)) ∧ last.status = .failed ∧ last.observe = state

/-- The outcomes of the runs of a machine. -/
def Ends (machine : Machine) (outcome : Outcome) : Prop :=
  ∃ limit last error, machine.run limit = .stopped last error ∧ EndsAs last error outcome

/-- Code of a core program that machines with so much memory can execute. -/
structure Executable (core : Core.Program) (cells : Nat) (code : Buffer) (memorySize : Nat) : Prop where
  instructions : code.instructions.toList = core.code 0
  sound : code.Sound memorySize
  valid : core.Valid cells

namespace Executable

variable {core : Core.Program} {machine last : Machine}

theorem has (executable : Executable core cells code memorySize) : code.Has 0 (core.code 0) :=
  executable.instructions ▸ code.has_toList

theorem linked (executable : Executable core cells code memorySize) :
    Linked cells code (core.entries 0) core.procedures :=
  Program.linked executable.valid executable.has

theorem size_eq (executable : Executable core cells code memorySize) :
    core.bodyStart 0 + core.body.size + 1 = code.size := by
  have length := congrArg List.length executable.instructions
  rw [Array.length_toList, Program.length_code] at length
  simp only [Program.bodyStart, Buffer.size, length]
  omega

theorem moves_body (executable : Executable core cells code memorySize) (state : State) :
    code.Has (core.bodyStart 0) (core.body.code (core.entries 0) (core.bodyStart 0)) ∧
      code.instructions[core.bodyStart 0 + core.body.size]? = some ⟨.stop, .absent⟩ ∧
      ∃ count, Moves code memorySize count ⟨0, [], [], state⟩
        ⟨core.bodyStart 0, [], [], state⟩ := by
  obtain ⟨hasFront, hasStop⟩ := executable.has.append
  obtain ⟨hasItems, hasBody⟩ := hasFront.append
  obtain ⟨fetchedStart, hasItems⟩ := hasItems.cons
  have bodyPlace : 0 + (itemsSize core.items + 1) = core.bodyStart 0 := by
    rw [Program.bodyStart]
    omega
  rw [List.length_cons, length_itemsCode, bodyPlace] at hasBody
  rw [List.length_append, List.length_cons, length_itemsCode, Command.length_code, ← Nat.add_assoc,
    bodyPlace] at hasStop
  obtain ⟨⟨count, moves⟩, _⟩ := moves_items core.items hasItems
  exact ⟨hasBody, hasStop.cons.1, _, (moves_note (.inl rfl) fetchedStart).trans moves⟩

theorem stopped_of_exec (executable : Executable core cells code memorySize) {outcome : Outcome}
    (shown : Shows code memorySize ⟨0, [], [], state⟩ machine)
    (exec : Core.Exec core.procedures core.body state outcome) :
    ∃ limit last error, resume limit machine = .stopped last error ∧ EndsAs last error outcome := by
  obtain ⟨hasBody, fetchedStop, count, moves⟩ := executable.moves_body state
  have reached : Reaches code memorySize ⟨0, [], [], state⟩
      (core.bodyStart 0 + core.body.size) outcome :=
    Reaches.of_moves moves
      (reaches_of_exec executable.sound executable.linked exec executable.valid.body hasBody)
  cases outcome with
  | finished final =>
    obtain ⟨count, moves⟩ := reached
    obtain ⟨moved, steps, shownLast⟩ := moves machine shown
    obtain ⟨last, status, config, stops⟩ := stops_of_stop fetchedStop shownLast
    exact ⟨count + 2, last, none, (steps.resume_add 2).trans (stops 0), rfl, status,
      congrArg Config.state config⟩
  | failed fault final =>
    obtain ⟨count, reading, moves, fetched, failed⟩ := reached
    obtain ⟨moved, steps, shownLast⟩ := moves machine shown
    obtain ⟨last, status, observed, stops⟩ := stops_of_read fetched failed shownLast
    exact ⟨count + 1, last, _, (steps.resume_add 1).trans (stops 0), ⟨_, rfl⟩, status, observed⟩

theorem exec_of_stopped (executable : Executable core cells code memorySize) {limit : Nat}
    {error : Option MachineError} (shown : Shows code memorySize ⟨0, [], [], state⟩ machine)
    (stopped : resume limit machine = .stopped last error) :
    (error = none ∧ last.status = .halted ∧ last.stack = [] ∧ last.returns = [] ∧
      last.pc = core.bodyStart 0 + core.body.size ∧
      Core.Exec core.procedures core.body state (.finished last.observe)) ∨
    ∃ fault pc, error = some (.execution fault pc) ∧ last.status = .failed ∧
      Core.Exec core.procedures core.body state (.failed fault last.observe) := by
  obtain ⟨hasBody, fetchedStop, count, moves⟩ := executable.moves_body state
  obtain ⟨reached, remaining, rfl, shownBody, later⟩ := moves.of_stopped shown stopped
  cases explains_all executable.sound executable.linked remaining core.body remaining
    (Nat.le_refl remaining) executable.valid.body hasBody shownBody later with
  | failed exec raised status => exact .inr ⟨_, _, raised, status, exec⟩
  | @finished final rest moved exec shorter shownLast stoppedLast =>
    obtain ⟨halted, status, config, stops⟩ := stops_of_stop fetchedStop shownLast
    have enough := resume_add_of_stopped stoppedLast 2
    rw [stops rest] at enough
    cases enough
    obtain ⟨pc, stack, returns, rfl⟩ := Config.mk.inj config
    exact .inl ⟨rfl, status, stack, returns, pc, exec⟩

theorem exec_iff_ends (executable : Executable core cells code memorySize) {outcome : Outcome}
    (shown : Shows code memorySize ⟨0, [], [], state⟩ { machine with status := .running }) :
    Core.Exec core.procedures core.body state outcome ↔ machine.Ends outcome := by
  constructor
  · intro exec
    exact executable.stopped_of_exec shown exec
  · rintro ⟨limit, last, error, stopped, ends⟩
    rcases executable.exec_of_stopped shown stopped with
      ⟨rfl, status, _, _, _, exec⟩ | ⟨fault, pc, rfl, status, exec⟩
    · cases outcome with
      | finished final =>
        obtain ⟨_, _, rfl⟩ := ends
        exact exec
      | failed fault final =>
        obtain ⟨⟨pc, same⟩, _⟩ := ends
        cases same
    · cases outcome with
      | finished final =>
        obtain ⟨same, _⟩ := ends
        cases same
      | failed fault final =>
        obtain ⟨⟨pc, same⟩, _, rfl⟩ := ends
        cases same
        exact exec

end Executable

end Pascalet.Machine
