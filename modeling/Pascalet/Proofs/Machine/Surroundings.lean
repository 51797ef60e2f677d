import Pascalet.Proofs.Machine.Control

namespace Pascalet.Machine

def redirect (change : Input → Input) (earlier : Array String) (machine : Machine) : Machine :=
  { machine with input := change machine.input, output := earlier ++ machine.output }

def onMachine {α : Type} (change : Machine → Machine) :
    EStateM.Result MachineError Machine α → EStateM.Result MachineError Machine α
  | .ok value after => .ok value (change after)
  | .error error after => .error error (change after)

/-- An action that takes no notice of the surroundings: it does the same in all of them, and it never
finds that there is no input left. -/
structure Detached {α : Type} (action : Action α) : Prop where
  redirected : ∀ (change : Input → Input) (earlier : Array String) (machine : Machine),
    action (machine.redirect change earlier) = onMachine (redirect change earlier) (action machine)
  neverLacks : ∀ {machine after : Machine} {fault : Fault} {pc : Nat},
    action machine = .error (.execution fault pc) after → fault ≠ .noInputLeft

section Detached

variable {α β : Type}

theorem Detached.bind {action : Action α} {next : α → Action β} (first : Detached action)
    (second : ∀ value, Detached (next value)) : Detached (action >>= next) where
  redirected change earlier machine := by
    rw [bind_apply, bind_apply, first.redirected]
    cases action machine with
    | ok value after => exact (second value).redirected change earlier after
    | error error after => rfl
  neverLacks := by
    intro machine after fault pc failed
    rw [bind_apply] at failed
    cases performed : action machine with
    | ok value middle =>
      rw [performed] at failed
      exact (second value).neverLacks failed
    | error error middle =>
      rw [performed] at failed
      cases failed
      exact first.neverLacks performed

theorem detached_pure (value : α) : Detached (pure value : Action α) := ⟨fun _ _ _ => rfl, nofun⟩

theorem detached_modify {change : Machine → Machine}
    (same : ∀ replace earlier machine,
      change (redirect replace earlier machine) = redirect replace earlier (change machine)) :
    Detached (modify change : Action PUnit) where
  redirected replace earlier machine := by
    rw [modify_apply, modify_apply, same]
    rfl
  neverLacks := nofun

theorem detached_fail {fault : Fault} (other : fault ≠ .noInputLeft) :
    Detached (fail fault : Action α) where
  redirected _ _ _ := rfl
  neverLacks := by
    rintro machine after _ pc failed
    cases failed
    exact other

theorem detached_get {next : Machine → Action α}
    (same : ∀ change earlier machine, next (redirect change earlier machine) = next machine)
    (goesOn : ∀ machine, Detached (next machine)) : Detached (get >>= next) where
  redirected change earlier machine := by
    rw [bind_apply, bind_apply, get_apply, get_apply]
    dsimp only
    rw [same]
    exact (goesOn machine).redirected change earlier machine
  neverLacks := by
    intro machine after fault pc failed
    exact (goesOn machine).neverLacks failed

theorem detached_push (value : Binary64) : Detached (push value) := detached_modify fun _ _ _ => rfl

theorem detached_pop : Detached pop := by
  refine detached_get (fun _ _ _ => rfl) fun machine => ?_
  cases machine.stack with
  | nil => exact detached_fail nofun
  | cons value rest =>
    exact (detached_modify fun _ _ _ => rfl).bind fun _ => detached_pure value

theorem detached_addressOf (argument : Argument) : Detached (addressOf argument) := by
  cases argument with
  | integer value =>
    refine detached_get (fun _ _ _ => rfl) fun machine => ?_
    split
    · exact detached_pure _
    · exact detached_fail nofun
  | absent => exact detached_fail nofun
  | text value => exact detached_fail nofun

theorem detached_targetOf (argument : Argument) : Detached (targetOf argument) := by
  cases argument with
  | integer value =>
    refine detached_get (fun _ _ _ => rfl) fun machine => ?_
    split
    · exact detached_pure _
    · exact detached_fail nofun
  | absent => exact detached_fail nofun
  | text value => exact detached_fail nofun

theorem detached_cellCountOf (argument : Argument) : Detached (cellCountOf argument) := by
  cases argument with
  | integer value =>
    unfold cellCountOf
    dsimp only
    split
    · exact detached_pure _
    · exact detached_fail nofun
  | absent => exact detached_fail nofun
  | text value => exact detached_fail nofun

theorem detached_constantOf (argument : Argument) : Detached (constantOf argument) := by
  cases argument with
  | integer value =>
    unfold constantOf
    dsimp only
    cases Binary64.ofInt? value with
    | some constant => exact detached_pure constant
    | none => exact ⟨fun _ _ _ => rfl, nofun⟩
  | absent => exact detached_fail nofun
  | text text =>
    unfold constantOf
    dsimp only
    cases Numeral.real? text.toList with
    | some constant => exact detached_pure constant
    | none => exact detached_fail nofun

theorem detached_loadCell (address : Nat) : Detached (loadCell address) :=
  detached_get (fun _ _ _ => rfl) fun _ => detached_push _

theorem detached_storeCell (address : Nat) (value : Binary64) : Detached (storeCell address value) :=
  detached_modify fun _ _ _ => rfl

theorem detached_perform {instruction : Instruction} (reads : instruction.opcode ≠ .read) :
    Detached (perform instruction) := by
  obtain ⟨opcode, argument⟩ := instruction
  cases opcode with
  | start | stop | reserve => exact detached_pure _
  | constant =>
    apply (detached_constantOf argument).bind
    intro value
    exact (detached_push value).bind fun _ => detached_pure _
  | load | pass =>
    apply (detached_addressOf argument).bind
    intro address
    exact (detached_loadCell address).bind fun _ => detached_pure _
  | store =>
    apply (detached_addressOf argument).bind
    intro address
    apply detached_pop.bind
    intro value
    exact (detached_storeCell address value).bind fun _ => detached_pure _
  | arithmetic | compare =>
    apply detached_pop.bind
    intro right
    apply detached_pop.bind
    intro left
    exact (detached_push _).bind fun _ => detached_pure _
  | negate =>
    apply detached_pop.bind
    intro operand
    exact (detached_push _).bind fun _ => detached_pure _
  | read => exact absurd rfl reads
  | write =>
    apply detached_pop.bind
    intro value
    refine (detached_modify fun _ _ _ => ?_).bind fun _ => detached_pure _
    simp [redirect]
  | jumpIfZero =>
    apply (detached_targetOf argument).bind
    intro target
    apply detached_pop.bind
    intro value
    split
    · exact detached_pure _
    · exact detached_pure _
  | jump | call => exact (detached_targetOf argument).bind fun _ => detached_pure _
  | pushReturn =>
    apply (detached_targetOf argument).bind
    intro target
    exact (detached_modify fun _ _ _ => rfl).bind fun _ => detached_pure _
  | ret =>
    refine detached_get (fun _ _ _ => rfl) fun machine => ?_
    cases machine.returns with
    | nil => exact detached_fail nofun
    | cons target rest =>
      exact (detached_modify fun _ _ _ => rfl).bind fun _ => detached_pure (Move.jump target)
  | release =>
    apply (detached_cellCountOf argument).bind
    intro count
    exact (detached_modify fun _ _ _ => rfl).bind fun _ => detached_pure _
  | other name => exact detached_fail nofun

theorem detached_follow (move : Move) : Detached (follow move) := by
  cases move <;> exact detached_modify fun _ _ _ => rfl

end Detached

variable {machine : Machine}

theorem exists_detached (reads : ∀ instruction ∈ machine.code.instructions[machine.pc]?,
      instruction.opcode ≠ .read) :
    ∃ action : Action Unit, Detached action ∧
      ∀ other : Machine, other.code = machine.code → other.pc = machine.pc →
        other.step = action other := by
  cases fetched : machine.code.instructions[machine.pc]? with
  | none =>
    refine ⟨follow .halt, detached_follow .halt, ?_⟩
    intro other code pc
    rw [← code, ← pc] at fetched
    rw [step_of_none fetched]
    rfl
  | some instruction =>
    refine ⟨do modify fun machine => { machine with steps := machine.steps + 1 }
               follow (← perform instruction), ?_, ?_⟩
    · apply (detached_modify fun _ _ _ => rfl).bind
      intro _
      exact (detached_perform (reads instruction fetched)).bind detached_follow
    · intro other code pc
      rw [← code, ← pc] at fetched
      rw [step_of_some fetched]
      rfl

def numberOf : Option (List Char) → Except Fault Binary64
  | none => .error .noInputLeft
  | some word =>
    match Numeral.real? word with
    | some value => .ok value
    | none => .error (.invalidInput (String.ofList word))

theorem readNumber_eq (machine : Machine) :
    readNumber machine = match numberOf machine.input.take.1 with
      | .ok value => .ok value { machine with input := machine.input.take.2 }
      | .error fault =>
        .error (.execution fault machine.pc) { machine with input := machine.input.take.2 } := by
  simp only [readNumber, bind_apply, get_apply, modify_apply]
  cases machine.input.take.1 with
  | none => rfl
  | some word =>
    simp only [numberOf]
    cases Numeral.real? word <;> rfl

theorem step_of_read {argument : Argument}
    (fetched : machine.code.instructions[machine.pc]? = some ⟨.read, argument⟩) :
    machine.step = match numberOf machine.input.take.1 with
      | .ok value => .ok () { machine with
          steps := machine.steps + 1, pc := machine.pc + 1, stack := value :: machine.stack,
          input := machine.input.take.2 }
      | .error fault => .error (.execution fault machine.pc) { machine with
          steps := machine.steps + 1, input := machine.input.take.2 } := by
  rw [step_of_some fetched]
  simp only [perform, bind_apply, readNumber_eq]
  cases numberOf machine.input.take.1 <;> rfl

/-- A step reads, or it takes no notice of the surroundings. -/
theorem step_cases (machine : Machine) :
    (∃ argument, machine.code.instructions[machine.pc]? = some ⟨.read, argument⟩) ∨
      (∀ change earlier, (machine.redirect change earlier).step =
        onMachine (redirect change earlier) machine.step) ∧
      ∀ {after fault pc}, machine.step = .error (.execution fault pc) after → fault ≠ .noInputLeft := by
  by_cases reads : ∃ argument, machine.code.instructions[machine.pc]? = some ⟨.read, argument⟩
  · exact .inl reads
  · right
    obtain ⟨action, detached, steps⟩ : ∃ action : Action Unit, Detached action ∧
        ∀ other : Machine, other.code = machine.code → other.pc = machine.pc →
          other.step = action other := by
      apply exists_detached
      rintro ⟨opcode, argument⟩ fetched rfl
      exact reads ⟨argument, fetched⟩
    rw [steps machine rfl rfl]
    refine ⟨fun change earlier => ?_, detached.neverLacks⟩
    rw [steps (machine.redirect change earlier) rfl rfl]
    exact detached.redirected change earlier machine

/-- The lines that were printed before are not seen by a step, whatever it does. -/
theorem step_behind (machine : Machine) (earlier : Array String) :
    (machine.redirect id earlier).step = onMachine (redirect id earlier) machine.step := by
  rcases machine.step_cases with ⟨argument, fetched⟩ | ⟨detached, _⟩
  · have same : (machine.redirect id earlier).code.instructions[
        (machine.redirect id earlier).pc]? = some ⟨.read, argument⟩ := fetched
    have input : (machine.redirect id earlier).input = machine.input := rfl
    rw [step_of_read fetched, step_of_read same, input]
    cases numberOf machine.input.take.1 <;> rfl
  · exact detached id earlier

def Progress.onMachine (change : Machine → Machine) : Progress → Progress
  | .unfinished machine => .unfinished (change machine)
  | .stopped machine error => .stopped (change machine) error

def Progress.reached : Progress → Machine
  | .unfinished machine => machine
  | .stopped machine _ => machine

theorem markFailed_redirect (machine : Machine) (change : Input → Input) (earlier : Array String)
    (error : MachineError) :
    (machine.redirect change earlier).markFailed error =
      (machine.markFailed error).redirect change earlier := by
  cases error <;> rfl

theorem resume_behind (limit : Nat) (machine : Machine) (earlier : Array String) :
    resume limit (machine.redirect id earlier) =
      (resume limit machine).onMachine (redirect id earlier) := by
  induction limit generalizing machine with
  | zero => rfl
  | succ limit ih =>
    have status : (machine.redirect id earlier).status = machine.status := rfl
    rw [resume, resume, status, step_behind]
    split
    · cases machine.step with
      | ok value after => exact ih after
      | error error after =>
        exact congrArg (Progress.stopped · (some error)) (markFailed_redirect after id earlier error)
    · rfl

theorem output_prefix_resume (limit : Nat) (machine : Machine) :
    machine.output.toList <+: (resume limit machine).reached.output.toList := by
  -- The machine is one that has printed nothing, behind the lines that this one has printed.
  have split : machine = { machine with output := #[] }.redirect id machine.output := by
    simp [redirect]
  have run := resume_behind limit { machine with output := #[] } machine.output
  rw [← split] at run
  rw [run]
  cases resume limit { machine with output := #[] } with
  | unfinished last => simp [Progress.onMachine, Progress.reached, redirect]
  | stopped last error => simp [Progress.onMachine, Progress.reached, redirect]

end Pascalet.Machine
