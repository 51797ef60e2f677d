import Pascalet.Proofs.Machine.Operations

namespace Pascalet

theorem Memory.Inside.get_eq_zero {memory : Memory} (inside : memory.Inside) {address : Nat}
    (outside : memory.size ≤ address) : memory.get address = Binary64.zero := by
  have absent : address ∉ memory.written := by
    intro member
    have below := inside address member
    omega
  exact Std.TreeMap.getD_eq_fallback absent

namespace Machine

def resize (size : Nat) (machine : Machine) : Machine :=
  { machine with memory := { machine.memory with size } }

def Holds (code : Buffer) (cells : Nat) (machine : Machine) : Prop :=
  machine.code = code ∧ cells ≤ machine.memory.size

def Uniform {α : Type} (code : Buffer) (cells size : Nat) (post : α → Prop) (action : Action α) : Prop :=
  ∀ machine : Machine, machine.Holds code cells →
    match action machine with
    | .ok value after => action (machine.resize size) = .ok value (after.resize size) ∧
        after.Holds code cells ∧ post value
    | .error error after => action (machine.resize size) = .error error (after.resize size)

section Uniform

variable {α β : Type} {code : Buffer} {cells size : Nat}

theorem Uniform.bind {middle : α → Prop} {post : β → Prop} {action : Action α}
    {next : α → Action β} (first : Uniform code cells size middle action)
    (second : ∀ value, middle value → Uniform code cells size post (next value)) :
    Uniform code cells size post (action >>= next) := by
  intro machine holds
  have begun := first machine holds
  rw [bind_apply, bind_apply]
  cases result : action machine with
  | ok value after =>
    rw [result] at begun
    obtain ⟨same, afterHolds, known⟩ := begun
    rw [same]
    exact second value known after afterHolds
  | error error after =>
    rw [result] at begun
    dsimp only
    rw [begun]

theorem uniform_pure {post : α → Prop} {value : α} (known : post value) :
    Uniform code cells size post (pure value) :=
  fun _ holds => ⟨rfl, holds, known⟩

theorem uniform_fail {post : α → Prop} (fault : Fault) :
    Uniform code cells size post (fail fault) :=
  fun _ _ => rfl

theorem uniform_push (value : Binary64) : Uniform code cells size (fun _ => True) (push value) :=
  fun _ holds => ⟨rfl, holds, trivial⟩

theorem uniform_pop : Uniform code cells size (fun _ => True) pop := by
  intro machine holds
  have same : (machine.resize size).stack = machine.stack := rfl
  rw [pop_apply, pop_apply, same]
  cases machine.stack with
  | cons value rest => exact ⟨rfl, holds, trivial⟩
  | nil => rfl

theorem uniform_readNumber : Uniform code cells size (fun _ => True) readNumber := by
  intro machine holds
  have same : (machine.resize size).observe = machine.observe := rfl
  rw [readNumber_apply, readNumber_apply, same]
  cases machine.observe.takeNumber.1 with
  | ok value => exact ⟨rfl, holds, trivial⟩
  | error fault => rfl

theorem uniform_addressOf {address : Nat} (inside : address < cells) (enough : cells ≤ size) :
    Uniform code cells size (· = address) (addressOf (.integer address)) := by
  intro machine holds
  have large : address < (machine.resize size).memory.size := Nat.lt_of_lt_of_le inside enough
  rw [addressOf_apply machine (Nat.lt_of_lt_of_le inside holds.2), addressOf_apply _ large]
  exact ⟨rfl, holds, rfl⟩

theorem uniform_targetOf (argument : Argument) :
    Uniform code cells size (fun _ => True) (targetOf argument) := by
  cases argument with
  | integer value =>
    intro machine holds
    have read (other : Machine) : targetOf (.integer value) other =
        if 0 ≤ value ∧ value ≤ other.code.size then .ok value.toNat other
        else fail (.targetOutOfRange (.integer value)) other := by
      simp only [targetOf, bind_apply, get_apply]
      split <;> rfl
    have same : (machine.resize size).code = machine.code := rfl
    rw [read, read, same]
    by_cases inside : 0 ≤ value ∧ value ≤ machine.code.size
    · rw [if_pos inside, if_pos inside]
      exact ⟨rfl, holds, trivial⟩
    · rw [if_neg inside, if_neg inside]
      rfl
  | absent => exact uniform_fail _
  | text value => exact uniform_fail _

theorem uniform_cellCountOf (argument : Argument) :
    Uniform code cells size (fun _ => True) (cellCountOf argument) := by
  cases argument with
  | integer value =>
    unfold cellCountOf
    dsimp only
    split
    · exact uniform_pure trivial
    · exact uniform_fail _
  | absent => exact uniform_fail _
  | text value => exact uniform_fail _

theorem uniform_constantOf (argument : Argument) :
    Uniform code cells size (fun _ => True) (constantOf argument) := by
  cases argument with
  | integer value =>
    unfold constantOf
    dsimp only
    cases Binary64.ofInt? value with
    | some constant => exact uniform_pure trivial
    | none => exact fun _ _ => rfl
  | absent => exact uniform_fail _
  | text text =>
    unfold constantOf
    dsimp only
    cases Numeral.real? text.toList with
    | some constant => exact uniform_pure trivial
    | none => exact uniform_fail _

theorem uniform_loadCell (address : Nat) :
    Uniform code cells size (fun _ => True) (loadCell address) :=
  fun _ holds => ⟨rfl, holds, trivial⟩

theorem uniform_storeCell {address : Nat} (inside : address < cells) (enough : cells ≤ size)
    (value : Binary64) : Uniform code cells size (fun _ => True) (storeCell address value) := by
  intro machine holds
  have fits : address < machine.memory.size := Nat.lt_of_lt_of_le inside holds.2
  have large : address < size := Nat.lt_of_lt_of_le inside enough
  refine ⟨?_, ⟨holds.1, ?_⟩, trivial⟩
  · simp [storeCell, resize, Memory.set, fits, large]
  · rw [Memory.size_set]
    exact holds.2

theorem uniform_perform {instruction : Instruction} (sound : instruction.Sound cells)
    (enough : cells ≤ size) : Uniform code cells size (fun _ => True) (perform instruction) := by
  obtain ⟨opcode, argument⟩ := instruction
  cases opcode with
  | start | stop | reserve => exact uniform_pure trivial
  | constant =>
    apply (uniform_constantOf argument).bind
    intro value _
    exact (uniform_push value).bind fun _ _ => uniform_pure trivial
  | load | pass =>
    obtain ⟨address, rfl, inside⟩ := sound.exists_address rfl
    apply (uniform_addressOf inside enough).bind
    intro found _
    exact (uniform_loadCell found).bind fun _ _ => uniform_pure trivial
  | store =>
    obtain ⟨address, rfl, inside⟩ := sound.exists_address rfl
    apply (uniform_addressOf inside enough).bind
    rintro _ rfl
    apply uniform_pop.bind
    intro value _
    exact (uniform_storeCell inside enough value).bind fun _ _ => uniform_pure trivial
  | arithmetic | compare =>
    apply uniform_pop.bind
    intro right _
    apply uniform_pop.bind
    intro left _
    exact (uniform_push _).bind fun _ _ => uniform_pure trivial
  | negate =>
    apply uniform_pop.bind
    intro operand _
    exact (uniform_push _).bind fun _ _ => uniform_pure trivial
  | read =>
    apply uniform_readNumber.bind
    intro value _
    exact (uniform_push value).bind fun _ _ => uniform_pure trivial
  | write =>
    apply uniform_pop.bind
    intro value _ machine holds
    exact ⟨rfl, holds, trivial⟩
  | jumpIfZero =>
    apply (uniform_targetOf argument).bind
    intro target _
    apply uniform_pop.bind
    intro value _
    split
    · exact uniform_pure trivial
    · exact uniform_pure trivial
  | jump | call => exact (uniform_targetOf argument).bind fun _ _ => uniform_pure trivial
  | pushReturn =>
    apply (uniform_targetOf argument).bind
    intro target _ machine holds
    exact ⟨rfl, holds, trivial⟩
  | ret =>
    intro machine holds
    have same : (machine.resize size).returns = machine.returns := rfl
    simp only [perform, bind_apply, get_apply, same]
    cases machine.returns with
    | cons target rest => exact ⟨rfl, holds, trivial⟩
    | nil => rfl
  | release =>
    apply (uniform_cellCountOf argument).bind
    intro count _ machine holds
    exact ⟨rfl, holds, trivial⟩
  | other name => exact uniform_fail _

theorem uniform_follow (move : Move) : Uniform code cells size (fun _ => True) (follow move) := by
  cases move with
  | next | jump _ | halt => exact fun _ holds => ⟨rfl, holds, trivial⟩

theorem uniform_step (sound : code.Sound cells) (enough : cells ≤ size) :
    Uniform code cells size (fun _ => True) step := by
  intro machine holds
  cases fetched : machine.code.instructions[machine.pc]? with
  | none =>
    have same : (machine.resize size).code.instructions[(machine.resize size).pc]? = none := fetched
    rw [step_of_none fetched, step_of_none same]
    exact ⟨rfl, holds, trivial⟩
  | some instruction =>
    have same : (machine.resize size).code.instructions[(machine.resize size).pc]? =
        some instruction := fetched
    rw [step_of_some fetched, step_of_some same]
    have member : instruction ∈ code.instructions := by
      rw [← holds.1]
      exact Array.mem_of_getElem? fetched
    exact (uniform_perform (sound instruction member) enough).bind (fun move _ => uniform_follow move)
      { machine with steps := machine.steps + 1 } holds

end Uniform

def Progress.resize (size : Nat) : Progress → Progress
  | .unfinished machine => .unfinished (machine.resize size)
  | .stopped machine error => .stopped (machine.resize size) error

theorem resume_resize {code : Buffer} {cells size : Nat} (sound : code.Sound cells)
    (enough : cells ≤ size) (limit : Nat) {machine : Machine} (holds : machine.Holds code cells) :
    resume limit (machine.resize size) = (resume limit machine).resize size := by
  induction limit generalizing machine with
  | zero => rfl
  | succ limit ih =>
    have status : (machine.resize size).status = machine.status := rfl
    have stepped := uniform_step sound enough machine holds
    rw [resume, resume, status]
    by_cases running : machine.status = .running
    · rw [if_pos running, if_pos running]
      cases result : machine.step with
      | ok value after =>
        rw [result] at stepped
        rw [stepped.1]
        exact ih stepped.2.1
      | error error after =>
        rw [result] at stepped
        rw [stepped]
        cases error <;> rfl
    · rw [if_neg running, if_neg running]
      rfl

/-- Machines of different sizes in the same state. They have the same values in the first cells, and
nothing in the others. -/
structure Agree (cells : Nat) (first second : Machine) : Prop where
  pc : first.pc = second.pc
  stack : first.stack = second.stack
  returns : first.returns = second.returns
  output : first.output = second.output
  input : first.input = second.input
  status : first.status = second.status
  steps : first.steps = second.steps
  released : first.released = second.released
  same : ∀ address < cells, first.memory.get address = second.memory.get address
  firstRest : ∀ address, cells ≤ address → first.memory.get address = Binary64.zero
  secondRest : ∀ address, cells ≤ address → second.memory.get address = Binary64.zero

/-- Runs that have come equally far, to machines that agree, or have stopped so with the same error. -/
inductive Progress.Agree (cells : Nat) : Progress → Progress → Prop where
  | unfinished {first second : Machine} (agree : first.Agree cells second) :
    Agree cells (.unfinished first) (.unfinished second)
  | stopped {first second : Machine} (agree : first.Agree cells second) (error : Option MachineError) :
    Agree cells (.stopped first error) (.stopped second error)

theorem agree_resize {machine : Machine} (inside : machine.memory.Inside) (firstSize secondSize : Nat) :
    (machine.resize firstSize).Agree machine.memory.size (machine.resize secondSize) where
  pc := rfl
  stack := rfl
  returns := rfl
  output := rfl
  input := rfl
  status := rfl
  steps := rfl
  released := rfl
  same _ _ := rfl
  firstRest _ outside := inside.get_eq_zero outside
  secondRest _ outside := inside.get_eq_zero outside

theorem agree_run {code : Buffer} {cells firstSize secondSize : Nat} (sound : code.Sound cells)
    (firstEnough : cells ≤ firstSize) (secondEnough : cells ≤ secondSize) (input : Input)
    (limit : Nat) :
    (run limit { code, memory := Memory.blank firstSize, input }).Agree cells
      (run limit { code, memory := Memory.blank secondSize, input }) := by
  -- Both are the run on a machine with just these cells, which writes no others.
  let least : Machine := { code, memory := Memory.blank cells, input, status := .running }
  have holds : least.Holds code cells := ⟨rfl, Nat.le_refl _⟩
  have first : run limit { code, memory := Memory.blank firstSize, input } =
      (resume limit least).resize firstSize := resume_resize sound firstEnough limit holds
  have second : run limit { code, memory := Memory.blank secondSize, input } =
      (resume limit least).resize secondSize := resume_resize sound secondEnough limit holds
  have bounds : least.InBounds code cells :=
    ⟨rfl, rfl, Memory.inside_blank cells, Nat.zero_le _, by simp [least]⟩
  have reached := (bounds.resume limit limit).1
  rw [first, second]
  cases ended : resume limit least with
  | unfinished last =>
    rw [ended] at reached
    have size : last.memory.size = cells := Int.ofNat_inj.mp reached.sameSize
    exact size ▸ .unfinished (agree_resize reached.written firstSize secondSize)
  | stopped last error =>
    rw [ended] at reached
    have size : last.memory.size = cells := Int.ofNat_inj.mp reached.sameSize
    exact size ▸ .stopped (agree_resize reached.written firstSize secondSize) error

end Machine

end Pascalet
