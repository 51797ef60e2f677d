import Pascalet.Proofs.Execution.Simulation

namespace Pascalet.Machine

open Pascalet.Core

/-- Why a run has stopped that began with a command: the command has been executed and the rest of the
run has stopped, or the command has failed. -/
inductive Explained (code : Buffer) (memorySize : Nat) (procedures : List Procedure)
    (command : Command) (first : Config) (next limit : Nat) (last : Machine)
    (error : Option MachineError) : Prop where
  | finished {final : State} {remaining : Nat} {moved : Machine}
    (exec : Exec procedures command first.state (.finished final)) (shorter : remaining ≤ limit)
    (shown : Shows code memorySize ⟨next, first.stack, first.returns, final⟩ moved)
    (stopped : resume remaining moved = .stopped last error)
  | failed {fault : Fault} {pc : Nat}
    (exec : Exec procedures command first.state (.failed fault last.observe))
    (raised : error = some (.execution fault pc)) (status : last.status = .failed)

def Explains (code : Buffer) (memorySize cells : Nat) (entries : List Nat)
    (procedures : List Procedure) (command : Command) (limit : Nat) : Prop :=
  ∀ {start : Nat} {stack : List Binary64} {returns : List Nat} {state : State}
    {machine last : Machine} {error : Option MachineError},
    command.Valid cells (procedures.map (·.parameterCount)) →
    code.Has start (command.code entries start) →
    Shows code memorySize ⟨start, stack, returns, state⟩ machine →
    resume limit machine = .stopped last error →
    Explained code memorySize procedures command ⟨start, stack, returns, state⟩
      (start + command.size) limit last error

variable {code : Buffer} {memorySize cells limit : Nat} {entries : List Nat}
  {procedures : List Procedure} (sound : code.Sound memorySize)

theorem explains_skip : Explains code memorySize cells entries procedures .skip limit := by
  intro start stack returns state machine last error valid has shown stopped
  exact .finished (.skip state) (Nat.le_refl limit) shown stopped

theorem explains_sequence {first second : Command}
    (explainsFirst : Explains code memorySize cells entries procedures first limit)
    (explainsSecond : ∀ remaining ≤ limit,
      Explains code memorySize cells entries procedures second remaining) :
    Explains code memorySize cells entries procedures (.sequence first second) limit := by
  intro start stack returns state machine last error valid has shown stopped
  obtain ⟨hasFirst, hasSecond⟩ := has.append
  rw [Command.length_code] at hasSecond
  cases explainsFirst valid.1 hasFirst shown stopped with
  | failed exec raised status => exact .failed (.sequenceFails exec) raised status
  | finished begun shorter shownBetween stoppedLater =>
    cases explainsSecond _ shorter valid.2 hasSecond shownBetween stoppedLater with
    | failed exec raised status => exact .failed (.sequence begun exec) raised status
    | finished ended shorterStill shownFinal stoppedFinal =>
      refine .finished (.sequence begun ended) (Nat.le_trans shorterStill shorter) ?_ stoppedFinal
      rwa [Command.size, ← Nat.add_assoc]

include sound

theorem explains_read (address : Nat) :
    Explains code memorySize cells entries procedures (.read address) limit := by
  intro start stack returns state machine last error valid has shown stopped
  obtain ⟨fetched, hasStore⟩ := has.cons
  have inside := sound.address hasStore.cons.1 rfl
  cases taking : state.takeNumber with
  | mk taken after =>
    cases taken with
    | ok value =>
      obtain ⟨moved, remaining, rfl, shownLast, later⟩ := ((moves_read fetched taking).trans
        (moves_store hasStore.cons.1 inside)).of_stopped shown stopped
      exact .finished (.read taking) (Nat.le_add_left _ _) shownLast later
    | error fault =>
      obtain ⟨failed, status, observed, stops⟩ := stops_of_read fetched taking shown
      cases limit with
      | zero => cases stopped
      | succ limit =>
        rw [stops limit] at stopped
        cases stopped
        exact .failed (observed ▸ .readFails taking) rfl status

theorem explains_write (value : Expression) :
    Explains code memorySize cells entries procedures (.write value) limit := by
  intro start stack returns state machine last error valid has shown stopped
  obtain ⟨hasValue, hasWrite⟩ := has.append
  obtain ⟨moved, remaining, rfl, shownLast, later⟩ := ((moves_expression sound value hasValue).trans
    (moves_write hasWrite.cons.1)).of_stopped shown stopped
  exact .finished (.write value state) (Nat.le_add_left _ _) shownLast later

theorem explains_assign (address : Nat) (value : Expression) :
    Explains code memorySize cells entries procedures (.assign address value) limit := by
  intro start stack returns state machine last error valid has shown stopped
  obtain ⟨hasValue, hasStore⟩ := has.append
  have inside := sound.address hasStore.cons.1 rfl
  obtain ⟨moved, remaining, rfl, shownLast, later⟩ := ((moves_expression sound value hasValue).trans
    (moves_store hasStore.cons.1 inside)).of_stopped shown stopped
  exact .finished (.assign address value state) (Nat.le_add_left _ _) shownLast later

theorem explains_choose {condition : Condition} {body other : Command}
    (explainsBody : ∀ remaining ≤ limit,
      Explains code memorySize cells entries procedures body remaining)
    (explainsOther : ∀ remaining ≤ limit,
      Explains code memorySize cells entries procedures other remaining) :
    Explains code memorySize cells entries procedures (.choose condition body other) limit := by
  intro start stack returns state machine last error valid has shown stopped
  obtain ⟨hasBody, hasOther, test, skip⟩ := moves_choose sound has
  obtain ⟨tested, remaining, rfl, shownTested, later⟩ :=
    (test stack returns state).of_stopped shown stopped
  have shorter : remaining ≤ condition.size + 1 + remaining := Nat.le_add_left _ _
  cases holds : condition.holds state.cells with
  | true =>
    rw [holds, if_pos rfl] at shownTested
    cases explainsBody _ shorter valid.2.1 hasBody shownTested later with
    | failed exec raised status => exact .failed (.choose holds exec) raised status
    | finished exec shorterStill shownFinal stoppedFinal =>
      obtain ⟨moved, rest, rfl, shownLast, stoppedLast⟩ :=
        (skip stack returns _).of_stopped shownFinal stoppedFinal
      exact .finished (.choose holds exec) (by omega) shownLast stoppedLast
  | false =>
    rw [holds, if_neg Bool.false_ne_true] at shownTested
    cases explainsOther _ shorter valid.2.2 hasOther shownTested later with
    | failed exec raised status => exact .failed (.chooseOther holds exec) raised status
    | finished exec shorterStill shownFinal stoppedFinal =>
      have place : start + (Command.choose condition body other).size =
          start + condition.size + 1 + body.size + 1 + other.size := by
        simp only [Command.size]
        omega
      refine .finished (.chooseOther holds exec) (by omega) ?_ stoppedFinal
      rw [place]
      exact shownFinal

theorem explains_loop {condition : Condition} {body : Command}
    (explainsBody : ∀ remaining < limit,
      Explains code memorySize cells entries procedures body remaining)
    (explainsAgain : ∀ remaining < limit,
      Explains code memorySize cells entries procedures (.loop condition body) remaining) :
    Explains code memorySize cells entries procedures (.loop condition body) limit := by
  intro start stack returns state machine last error valid has shown stopped
  obtain ⟨hasBody, test, back⟩ := moves_loop sound has
  obtain ⟨tested, remaining, rfl, shownTested, later⟩ :=
    (test stack returns state).of_stopped shown stopped
  cases holds : condition.holds state.cells with
  | true =>
    rw [holds, if_pos rfl] at shownTested
    cases explainsBody _ (by omega) valid.2 hasBody shownTested later with
    | failed exec raised status => exact .failed (.loopFails holds exec) raised status
    | finished once shorter shownBetween stoppedBetween =>
      obtain ⟨moved, rest, rfl, shownAgain, stoppedAgain⟩ :=
        (back stack returns _).of_stopped shownBetween stoppedBetween
      cases explainsAgain rest (by omega) valid has shownAgain stoppedAgain with
      | failed exec raised status => exact .failed (.loop holds once exec) raised status
      | finished again shorterStill shownFinal stoppedFinal =>
        exact .finished (.loop holds once again) (by omega) shownFinal stoppedFinal
  | false =>
    rw [holds, if_neg Bool.false_ne_true] at shownTested
    exact .finished (.loopEnds holds) (Nat.le_add_left _ _) shownTested later

theorem explains_call (linked : Linked cells code entries procedures) {number : Nat}
    {arguments : List Nat}
    (explainsAll : ∀ remaining < limit, ∀ body : Command,
      Explains code memorySize cells entries procedures body remaining) :
    Explains code memorySize cells entries procedures (.call number arguments) limit := by
  intro start stack returns state machine last error valid has shown stopped
  obtain ⟨called, found⟩ : ∃ called, procedures[number]? = some called := by
    have inside := (List.getElem?_eq_some_iff.mp valid.1).1
    rw [List.length_map] at inside
    exact ⟨_, List.getElem?_eq_getElem inside⟩
  obtain ⟨entry, entered, hasCalled, calledValid⟩ := linked number called found
  obtain ⟨reached, remaining, rfl, shownReached, later⟩ :=
    (moves_call sound has entered hasCalled (parameterCount_of_valid valid found)).of_stopped
      shown stopped
  have hasBody := (has_procedure hasCalled).2.2.1
  cases explainsAll remaining (by omega) called.body calledValid hasBody shownReached later with
  | failed exec raised status => exact .failed (.call found exec) raised status
  | finished exec shorter shownFinal stoppedFinal =>
    obtain ⟨moved, rest, rfl, shownLast, stoppedLast⟩ :=
      (moves_leave hasCalled _).of_stopped shownFinal stoppedFinal
    exact .finished (.call found exec) (by omega) shownLast stoppedLast

theorem explains_all (linked : Linked cells code entries procedures) (limit : Nat) :
    ∀ command : Command, ∀ remaining ≤ limit,
      Explains code memorySize cells entries procedures command remaining := by
  -- Loops and calls come back with fewer steps to take; all else goes by the parts of the command.
  induction limit using Nat.strongRecOn with
  | ind limit fewer =>
    have all : ∀ remaining < limit, ∀ command : Command,
        Explains code memorySize cells entries procedures command remaining :=
      fun remaining less command => fewer remaining less command remaining (Nat.le_refl remaining)
    intro command
    induction command with
    | skip => exact fun remaining _ => explains_skip
    | sequence first second firstIh secondIh =>
      exact fun remaining le => explains_sequence (firstIh remaining le)
        fun rest less => secondIh rest (Nat.le_trans less le)
    | read address => exact fun remaining _ => explains_read sound address
    | write value => exact fun remaining _ => explains_write sound value
    | assign address value => exact fun remaining _ => explains_assign sound address value
    | choose condition body other bodyIh otherIh =>
      exact fun remaining le => explains_choose sound
        (fun rest less => bodyIh rest (Nat.le_trans less le))
        (fun rest less => otherIh rest (Nat.le_trans less le))
    | loop condition body ih =>
      exact fun remaining le => explains_loop sound
        (fun rest less => all rest (Nat.lt_of_lt_of_le less le) body)
        (fun rest less => all rest (Nat.lt_of_lt_of_le less le) (.loop condition body))
    | call number arguments =>
      exact fun remaining le => explains_call sound linked
        (fun rest less => all rest (Nat.lt_of_lt_of_le less le))

end Pascalet.Machine
