import Pascalet.Proofs.Execution.Linked

namespace Pascalet.Machine

open Pascalet.Core

variable {code : Buffer} {memorySize cells start : Nat} {entries : List Nat}
  {procedures : List Procedure} {stack : List Binary64} {returns : List Nat} {state : State}

section Procedures

variable {entry : Nat} {called : Procedure}

theorem has_procedure (has : code.Has entry (called.code entries entry)) :
    code.Has entry (storeAll called.firstCell called.parameterCount) ∧
      code.Has (entry + called.parameterCount) (reserveAll called.localCount) ∧
      code.Has (entry + called.parameterCount + called.localCount)
        (called.body.code entries (entry + called.parameterCount + called.localCount)) ∧
      code.Has (entry + called.parameterCount + called.localCount + called.body.size)
        [⟨.release, .integer (called.parameterCount + called.localCount : Nat)⟩, ⟨.ret, .absent⟩] := by
  obtain ⟨hasFront, hasLeaving⟩ := has.append
  obtain ⟨hasOpening, hasBody⟩ := hasFront.append
  obtain ⟨hasStores, hasReserves⟩ := hasOpening.append
  simp only [List.length_append, length_storeAll, length_reserveAll, Command.length_code,
    ← Nat.add_assoc] at hasLeaving hasBody hasReserves
  exact ⟨hasStores, hasReserves, hasBody, hasLeaving⟩

theorem moves_enter (sound : code.Sound memorySize)
    (has : code.Has entry (called.code entries entry)) {values : List Binary64}
    (counted : values.length = called.parameterCount) :
    Moves code memorySize (called.parameterCount + called.localCount)
      ⟨entry, values.reverse ++ stack, returns, state⟩
      ⟨entry + called.parameterCount + called.localCount, stack, returns,
        state.pass called.firstCell values⟩ := by
  obtain ⟨hasStores, hasReserves, _, _⟩ := has_procedure has
  rw [← counted, ← List.length_reverse] at hasStores hasReserves ⊢
  have stored := @moves_stores code memorySize entry stack returns state sound called.firstCell
    values.reverse hasStores
  rw [List.reverse_reverse] at stored
  exact stored.trans (moves_reserves called.localCount hasReserves)

theorem moves_leave (has : code.Has entry (called.code entries entry)) (target : Nat) :
    Moves code memorySize 2
      ⟨entry + called.parameterCount + called.localCount + called.body.size, stack,
        target :: returns, state⟩
      ⟨target, stack, returns, state⟩ := by
  obtain ⟨_, _, _, hasLeaving⟩ := has_procedure has
  obtain ⟨fetchedRelease, hasReturn⟩ := hasLeaving.cons
  exact (moves_release fetchedRelease).trans (moves_ret hasReturn.cons.1)

theorem parameterCount_of_valid {number : Nat} {arguments : List Nat}
    (valid : (Command.call number arguments).Valid cells (procedures.map (·.parameterCount)))
    (found : procedures[number]? = some called) : called.parameterCount = arguments.length := by
  have count := valid.1
  rw [List.getElem?_map, found] at count
  exact Option.some.inj count

theorem moves_call (sound : code.Sound memorySize)
    {number : Nat} {arguments : List Nat}
    (has : code.Has start ((Command.call number arguments).code entries start))
    (found : entries[number]? = some entry) (hasCalled : code.Has entry (called.code entries entry))
    (counted : called.parameterCount = arguments.length) :
    Moves code memorySize (1 + arguments.length + 1 + (called.parameterCount + called.localCount))
      ⟨start, stack, returns, state⟩
      ⟨entry + called.parameterCount + called.localCount, stack,
        (start + (Command.call number arguments).size) :: returns,
        state.pass called.firstCell (arguments.map state.cells)⟩ := by
  have blockEnd := has.end_le (by simp [Command.size])
  have calledEnd := hasCalled.end_le (by simp [Procedure.size])
  rw [Command.length_code] at blockEnd
  obtain ⟨hasPasses, hasJump⟩ := has.append
  obtain ⟨fetchedPush, hasPasses⟩ := hasPasses.cons
  have fetchedCall := hasJump.cons.1
  rw [List.getD_eq_getElem?_getD, found, Option.getD_some, List.length_cons, List.length_map,
    Nat.add_comm arguments.length, ← Nat.add_assoc] at fetchedCall
  have pushed := @moves_pushReturn code memorySize start stack returns state _ fetchedPush blockEnd
  have passed := pushed.trans (moves_passes sound arguments hasPasses)
  have called := passed.trans (moves_jump (.inr rfl) fetchedCall (by omega))
  exact called.trans (moves_enter sound hasCalled (by rw [List.length_map, counted]))

end Procedures

section Branches

variable {condition : Condition} {body other : Command}

theorem moves_choose (sound : code.Sound memorySize)
    (has : code.Has start ((Command.choose condition body other).code entries start)) :
    let inner := start + condition.size + 1
    let alternative := inner + body.size + 1
    code.Has inner (body.code entries inner) ∧ code.Has alternative (other.code entries alternative) ∧
      (∀ stack returns state, Moves code memorySize (condition.size + 1)
        ⟨start, stack, returns, state⟩
        ⟨if condition.holds state.cells then inner else alternative, stack, returns, state⟩) ∧
      ∀ stack returns state, Moves code memorySize 1 ⟨inner + body.size, stack, returns, state⟩
        ⟨start + (Command.choose condition body other).size, stack, returns, state⟩ := by
  intro inner alternative
  have blockEnd := has.end_le (by rw [Command.length_code, Command.size]; omega)
  rw [Command.length_code, Command.size] at blockEnd
  obtain ⟨hasFront, hasBack⟩ := has.append
  have hasBody := hasFront.append.2.cons.2
  rw [List.length_append, List.length_cons, Command.length_code] at hasBack
  have place : start + (condition.code.length + (body.size + 1)) = inner + body.size := by
    simp only [inner, Condition.size]
    omega
  rw [place] at hasBack
  obtain ⟨fetchedJump, hasOther⟩ := hasBack.cons
  refine ⟨hasBody, hasOther, fun stack returns state => ?_, fun stack returns state => ?_⟩
  · exact moves_condition sound condition hasFront (by omega)
  · refine (moves_jump (.inl rfl) fetchedJump (by omega)).cast rfl ?_
    rw [Command.size]
    omega

theorem moves_loop (sound : code.Sound memorySize)
    (has : code.Has start ((Command.loop condition body).code entries start)) :
    let inner := start + condition.size + 1
    code.Has inner (body.code entries inner) ∧
      (∀ stack returns state, Moves code memorySize (condition.size + 1)
        ⟨start, stack, returns, state⟩
        ⟨if condition.holds state.cells then inner
          else start + (Command.loop condition body).size, stack, returns, state⟩) ∧
      ∀ stack returns state, Moves code memorySize 1 ⟨inner + body.size, stack, returns, state⟩
        ⟨start, stack, returns, state⟩ := by
  intro inner
  have blockEnd := has.end_le (by simp [Command.size])
  rw [Command.length_code, Command.size] at blockEnd
  obtain ⟨hasFront, hasBack⟩ := has.append
  have hasBody := hasFront.append.2.cons.2
  rw [List.length_append, List.length_cons, Command.length_code] at hasBack
  have place : start + (condition.code.length + (body.size + 1)) = inner + body.size := by
    simp only [inner, Condition.size]
    omega
  rw [place] at hasBack
  refine ⟨hasBody, fun stack returns state => ?_, fun stack returns state => ?_⟩
  · refine (moves_condition sound condition hasFront (by omega)).cast rfl ?_
    rw [Command.size]
    split <;> omega
  · exact moves_jump (.inl rfl) hasBack.cons.1 (by omega)

end Branches

/-- What becomes of a machine while it executes a command: it gets behind the code of the command, or
to an instruction that fails to read. -/
def Reaches (code : Buffer) (memorySize : Nat) (first : Config) (next : Nat) : Outcome → Prop
  | .finished final => ∃ count,
      Moves code memorySize count first ⟨next, first.stack, first.returns, final⟩
  | .failed fault final => ∃ count reading, Moves code memorySize count first reading ∧
      code.instructions[reading.pc]? = some ⟨.read, .absent⟩ ∧
      reading.state.takeNumber = (.error fault, final)

theorem Reaches.of_moves {count next : Nat} {outcome : Outcome} {first : Config}
    {pc : Nat} (moves : Moves code memorySize count first ⟨pc, first.stack, first.returns, state⟩)
    (reaches : Reaches code memorySize ⟨pc, first.stack, first.returns, state⟩ next outcome) :
    Reaches code memorySize first next outcome := by
  cases outcome with
  | finished final =>
    obtain ⟨more, later⟩ := reaches
    exact ⟨_, moves.trans later⟩
  | failed fault final =>
    obtain ⟨more, reading, later, fetched, failed⟩ := reaches
    exact ⟨_, reading, moves.trans later, fetched, failed⟩

theorem Reaches.then_moves {count next behind : Nat} {outcome : Outcome} {first : Config}
    (reaches : Reaches code memorySize first next outcome)
    (moves : ∀ final, Moves code memorySize count ⟨next, first.stack, first.returns, final⟩
      ⟨behind, first.stack, first.returns, final⟩) :
    Reaches code memorySize first behind outcome := by
  cases outcome with
  | finished final =>
    obtain ⟨before, earlier⟩ := reaches
    exact ⟨_, earlier.trans (moves final)⟩
  | failed fault final => exact reaches

theorem reaches_of_exec (sound : code.Sound memorySize)
    (linked : Linked cells code entries procedures) {command : Command} {outcome : Outcome}
    (exec : Exec procedures command state outcome)
    (valid : command.Valid cells (procedures.map (·.parameterCount)))
    (has : code.Has start (command.code entries start)) :
    Reaches code memorySize ⟨start, stack, returns, state⟩ (start + command.size) outcome := by
  induction exec generalizing start stack returns with
  | skip state => exact ⟨0, .none _⟩
  | sequence begun ended firstIh secondIh =>
    obtain ⟨hasFirst, hasSecond⟩ := has.append
    rw [Command.length_code] at hasSecond
    obtain ⟨count, moves⟩ := firstIh valid.1 hasFirst
    rw [Command.size, ← Nat.add_assoc]
    exact Reaches.of_moves moves (secondIh valid.2 hasSecond)
  | sequenceFails failed ih => exact ih valid.1 has.append.1
  | read taken =>
    obtain ⟨fetched, hasStore⟩ := has.cons
    have inside := sound.address hasStore.cons.1 rfl
    exact ⟨_, (moves_read fetched taken).trans (moves_store hasStore.cons.1 inside)⟩
  | readFails failed => exact ⟨0, _, .none _, has.cons.1, failed⟩
  | write value state =>
    obtain ⟨hasValue, hasWrite⟩ := has.append
    exact ⟨_, (moves_expression sound value hasValue).trans (moves_write hasWrite.cons.1)⟩
  | assign address value state =>
    obtain ⟨hasValue, hasStore⟩ := has.append
    have inside := sound.address hasStore.cons.1 rfl
    exact ⟨_, (moves_expression sound value hasValue).trans (moves_store hasStore.cons.1 inside)⟩
  | @choose condition body other state outcome holds chosen ih =>
    obtain ⟨hasBody, _, test, skip⟩ := moves_choose sound has
    have tested := test stack returns state
    rw [if_pos holds] at tested
    exact Reaches.of_moves tested ((ih valid.2.1 hasBody).then_moves (skip stack returns))
  | @chooseOther condition body other state outcome fails chosen ih =>
    obtain ⟨_, hasOther, test, _⟩ := moves_choose sound has
    have tested := test stack returns state
    rw [if_neg (Bool.eq_false_iff.mp fails)] at tested
    have place : start + (Command.choose condition body other).size =
        start + condition.size + 1 + body.size + 1 + other.size := by
      simp only [Command.size]
      omega
    rw [place]
    exact Reaches.of_moves tested (ih valid.2.2 hasOther)
  | @loop condition body state between outcome holds once again onceIh againIh =>
    obtain ⟨hasBody, test, back⟩ := moves_loop sound has
    have tested := test stack returns state
    rw [if_pos holds] at tested
    obtain ⟨count, moves⟩ := onceIh valid.2 hasBody
    exact Reaches.of_moves ((tested.trans moves).trans (back stack returns between))
      (againIh valid has)
  | @loopFails condition body state final fault holds failed ih =>
    obtain ⟨hasBody, test, _⟩ := moves_loop sound has
    have tested := test stack returns state
    rw [if_pos holds] at tested
    obtain ⟨count, reading, moves, fetched, refused⟩ := ih valid.2 hasBody
    exact ⟨_, reading, tested.trans moves, fetched, refused⟩
  | @loopEnds condition body state fails =>
    obtain ⟨_, test, _⟩ := moves_loop sound has
    have tested := test stack returns state
    rw [if_neg (Bool.eq_false_iff.mp fails)] at tested
    exact ⟨_, tested⟩
  | @call number arguments called state outcome found performed ih =>
    obtain ⟨entry, entered, hasCalled, calledValid⟩ := linked number called found
    have counted := parameterCount_of_valid valid found
    have calling := @moves_call code memorySize start entries stack returns state entry called sound
      number arguments has entered hasCalled counted
    have hasBody := (has_procedure hasCalled).2.2.1
    cases outcome with
    | finished final =>
      obtain ⟨count, moves⟩ := ih calledValid hasBody
      exact ⟨_, (calling.trans moves).trans (moves_leave hasCalled _)⟩
    | failed fault final =>
      obtain ⟨count, reading, moves, fetched, refused⟩ := ih calledValid hasBody
      exact ⟨_, reading, calling.trans moves, fetched, refused⟩

end Pascalet.Machine
