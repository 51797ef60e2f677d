import Pascalet.Proofs.Execution.Linked

namespace Pascalet

def Opcode.isPlain : Opcode → Bool
  | start | reserve | constant | load | store | arithmetic _ | negate | read | write | compare _
  | release => true
  | _ => false

namespace Buffer

def Settled (code : Buffer) (index : Nat) : Prop :=
  ∀ instruction, code.instructions[index]? = some instruction →
    instruction.opcode ≠ .pass ∧ instruction.opcode ≠ .call

/-- The instructions of a call: the return address, the arguments, the call itself. -/
structure CallSequence (code : Buffer) (entries : List Nat) (place : Nat → Prop)
    (push call entry : Nat) : Prop where
  ordered : push < call
  pushes : code.instructions[push]? = some ⟨.pushReturn, .integer (call + 1 : Nat)⟩
  passes : ∀ index, push < index → index < call →
    ∃ argument, code.instructions[index]? = some ⟨.pass, argument⟩
  calls : code.instructions[call]? = some ⟨.call, .integer entry⟩
  known : entry ∈ entries
  places : ∀ index, push ≤ index → index ≤ call + 1 → place index
  settled : code.Settled (call + 1)

/-- Where control goes from an instruction: to places that are allowed, and not into the middle of a
call. Returns can be allowed or not. -/
inductive Flow (code : Buffer) (entries : List Nat) (place : Nat → Prop) (returns : Prop)
    (index : Nat) : Instruction → Prop where
  | plain {instruction : Instruction} (isPlain : instruction.opcode.isPlain = true)
    (next : place (index + 1)) (settled : code.Settled (index + 1)) :
    Flow code entries place returns index instruction
  | jump {target : Nat} (there : place target) (settled : code.Settled target) :
    Flow code entries place returns index ⟨.jump, .integer target⟩
  | jumpIfZero {target : Nat} (next : place (index + 1)) (settledNext : code.Settled (index + 1))
    (there : place target) (settled : code.Settled target) :
    Flow code entries place returns index ⟨.jumpIfZero, .integer target⟩
  | pushReturn {call entry : Nat} (sequence : code.CallSequence entries place index call entry) :
    Flow code entries place returns index ⟨.pushReturn, .integer (call + 1 : Nat)⟩
  | pass {push call entry : Nat} {argument : Argument}
    (sequence : code.CallSequence entries place push call entry) (behind : push < index)
    (before : index < call) : Flow code entries place returns index ⟨.pass, argument⟩
  | call {push entry : Nat} (sequence : code.CallSequence entries place push index entry) :
    Flow code entries place returns index ⟨.call, .integer entry⟩
  | stop : Flow code entries place returns index ⟨.stop, .absent⟩
  | ret (allowed : returns) : Flow code entries place returns index ⟨.ret, .absent⟩

def Every (code : Buffer) (holds : Nat → Instruction → Prop) (first last : Nat) : Prop :=
  ∀ index instruction, first ≤ index → index < last →
    code.instructions[index]? = some instruction → holds index instruction

def Flows (code : Buffer) (entries : List Nat) (place : Nat → Prop) (returns : Prop)
    (first last : Nat) : Prop :=
  ∀ index instruction, first ≤ index → index < last →
    code.instructions[index]? = some instruction → code.Flow entries place returns index instruction

def UpTo (first last index : Nat) : Prop :=
  first ≤ index ∧ index ≤ last

variable {code : Buffer} {entries more : List Nat} {place other : Nat → Prop} {returns allowed : Prop}
  {start first middle last index : Nat}

theorem settled_of_fetched {instruction : Instruction}
    (fetched : code.instructions[index]? = some instruction)
    (settled : instruction.opcode ≠ .pass ∧ instruction.opcode ≠ .call) : code.Settled index := by
  intro found same
  cases fetched.symm.trans same
  exact settled

theorem Every.append {holds : Nat → Instruction → Prop} (front : code.Every holds first middle)
    (back : code.Every holds middle last) : code.Every holds first last := by
  intro index instruction behind before fetched
  by_cases early : index < middle
  · exact front index instruction behind early fetched
  · exact back index instruction (Nat.le_of_not_lt early) before fetched

theorem Every.single {holds : Nat → Instruction → Prop} {instruction : Instruction}
    (fetched : code.instructions[index]? = some instruction) (here : holds index instruction) :
    code.Every holds index (index + 1) := by
  intro found same behind before fetchedSame
  obtain rfl : index = found := by omega
  cases fetched.symm.trans fetchedSame
  exact here

theorem CallSequence.mono {push call entry : Nat}
    (sequence : code.CallSequence entries place push call entry)
    (known : ∀ entry ∈ entries, entry ∈ more) (places : ∀ index, place index → other index) :
    code.CallSequence more other push call entry :=
  { sequence with
    known := known entry sequence.known
    places := fun index behind before => places index (sequence.places index behind before) }

theorem Flow.mono {instruction : Instruction}
    (flow : code.Flow entries place returns index instruction)
    (known : ∀ entry ∈ entries, entry ∈ more) (finals : returns → allowed)
    (places : ∀ index, place index → other index) :
    code.Flow more other allowed index instruction := by
  cases flow with
  | plain isPlain next settled => exact .plain isPlain (places _ next) settled
  | jump there settled => exact .jump (places _ there) settled
  | jumpIfZero next settledNext there settled =>
    exact .jumpIfZero (places _ next) settledNext (places _ there) settled
  | pushReturn sequence => exact .pushReturn (sequence.mono known places)
  | pass sequence behind before => exact .pass (sequence.mono known places) behind before
  | call sequence => exact .call (sequence.mono known places)
  | stop => exact .stop
  | ret returns => exact .ret (finals returns)

theorem Flows.widen {left right : Nat} (flows : code.Flows entries (UpTo first last) False first last)
    (below : left ≤ first) (above : last ≤ right) :
    code.Flows entries (UpTo left right) returns first last := by
  intro index instruction behind before fetched
  apply (flows index instruction behind before fetched).mono (fun _ known => known) False.elim
  rintro index ⟨behind, before⟩
  exact ⟨Nat.le_trans below behind, Nat.le_trans before above⟩

theorem Flows.append (front : code.Flows entries place returns first middle)
    (back : code.Flows entries place returns middle last) :
    code.Flows entries place returns first last :=
  Every.append front back

theorem Flows.single {instruction : Instruction}
    (fetched : code.instructions[index]? = some instruction)
    (flow : code.Flow entries place returns index instruction) :
    code.Flows entries place returns index (index + 1) :=
  Every.single fetched flow

theorem Has.get {block : List Instruction} (has : code.Has start block) (behind : start ≤ index)
    (before : index < start + block.length) :
    ∃ instruction ∈ block, code.instructions[index]? = some instruction := by
  have inside : index - start < block.length := by omega
  have fetched := has (index - start) _ (List.getElem?_eq_getElem inside)
  rw [Nat.add_sub_cancel' behind] at fetched
  exact ⟨_, List.getElem_mem inside, fetched⟩

def AllPlain (block : List Instruction) : Prop :=
  ∀ instruction ∈ block, instruction.opcode.isPlain = true

theorem not_call_of_isPlain {opcode : Opcode} (isPlain : opcode.isPlain = true) :
    opcode ≠ .pass ∧ opcode ≠ .call := by
  constructor
  · rintro rfl
    cases isPlain
  · rintro rfl
    cases isPlain

theorem flows_plain {block : List Instruction} (has : code.Has start block) (plain : AllPlain block)
    (ends : start + block.length = last) (settled : code.Settled last) :
    code.Flows entries (UpTo start last) returns start last ∧ code.Settled start := by
  subst ends
  have settledAt : ∀ index, start ≤ index → index ≤ start + block.length → code.Settled index := by
    intro index behind before
    rcases Nat.lt_or_eq_of_le before with inside | rfl
    · obtain ⟨instruction, member, fetched⟩ := has.get behind inside
      exact settled_of_fetched fetched (not_call_of_isPlain (plain instruction member))
    · exact settled
  refine ⟨?_, settledAt start (Nat.le_refl _) (by omega)⟩
  intro index instruction behind before fetched
  obtain ⟨found, member, fetchedSame⟩ := has.get behind before
  cases fetched.symm.trans fetchedSame
  exact .plain (plain instruction member) ⟨by omega, by omega⟩ (settledAt _ (by omega) (by omega))

@[simp]
theorem allPlain_nil : AllPlain [] := by
  simp [AllPlain]

@[simp]
theorem allPlain_cons {first : Instruction} {rest : List Instruction} :
    AllPlain (first :: rest) ↔ first.opcode.isPlain = true ∧ AllPlain rest :=
  List.forall_mem_cons

@[simp]
theorem allPlain_append {front back : List Instruction} :
    AllPlain (front ++ back) ↔ AllPlain front ∧ AllPlain back :=
  List.forall_mem_append

end Buffer

namespace Core

open Buffer

theorem Expression.allPlain_code (expression : Expression) : AllPlain expression.code := by
  induction expression with
  | cell address => simp [code, Opcode.isPlain]
  | constant text => simp [code, Opcode.isPlain]
  | negate operand ih => simpa [code, Opcode.isPlain] using ih
  | binary operator left right leftIh rightIh =>
    simpa [code, Opcode.isPlain] using ⟨leftIh, rightIh⟩

theorem Condition.allPlain_code (condition : Condition) : AllPlain condition.code := by
  simpa [code, Opcode.isPlain] using
    ⟨condition.left.allPlain_code, condition.right.allPlain_code⟩

theorem allPlain_reserveAll (count : Nat) : AllPlain (reserveAll count) := by
  intro instruction found
  rw [(List.mem_replicate.mp found).2]
  rfl

theorem allPlain_storeAll (firstCell count : Nat) : AllPlain (storeAll firstCell count) := by
  rw [AllPlain, storeAll, List.forall_mem_map]
  exact fun _ _ => rfl

variable {code : Buffer} {cells start : Nat} {parameterCounts entries : List Nat}

theorem Condition.flows {condition : Condition} {target last : Nat} {rest : List Instruction}
    (has : code.Has start (condition.code ++ ⟨.jumpIfZero, .integer target⟩ :: rest))
    (inside : UpTo start last target) (settledTarget : code.Settled target)
    (next : start + condition.size + 1 ≤ last) (settledNext : code.Settled (start + condition.size + 1)) :
    code.Flows entries (UpTo start last) False start (start + condition.size + 1) ∧
      code.Settled start := by
  obtain ⟨hasCondition, hasBranch⟩ := has.append
  have fetched : code.instructions[start + condition.size]? = some ⟨.jumpIfZero, .integer target⟩ :=
    hasBranch.cons.1
  obtain ⟨flows, settledStart⟩ := @flows_plain _ entries False _ _ _ hasCondition
    condition.allPlain_code rfl (settled_of_fetched fetched (by simp))
  have branch : code.Flow entries (UpTo start last) False (start + condition.size)
      ⟨.jumpIfZero, .integer target⟩ :=
    .jumpIfZero ⟨by omega, by omega⟩ settledNext inside settledTarget
  refine ⟨?_, settledStart⟩
  exact (flows.widen (Nat.le_refl _) (Nat.le_of_succ_le next)).append (.single fetched branch)

theorem Command.guarded_end (condition : Condition) (branch : Instruction) (body : Command)
    (inner : Nat) :
    start + (condition.code ++ branch :: body.code entries inner).length =
      start + condition.size + 1 + body.size := by
  simp only [List.length_append, List.length_cons, length_code, Condition.size]
  omega

theorem Command.flows_call {procedure : Nat} {arguments : List Nat}
    (inside : procedure < entries.length)
    (has : code.Has start ((call procedure arguments).code entries start))
    (settled : code.Settled (start + arguments.length + 2)) :
    code.Flows entries (UpTo start (start + arguments.length + 2)) False start
      (start + arguments.length + 2) ∧ code.Settled start := by
  obtain ⟨hasFront, hasCall⟩ := has.append
  obtain ⟨fetchedPush, hasPasses⟩ := hasFront.cons
  have fetchedCall := hasCall.cons.1
  rw [List.length_cons, List.length_map, ← Nat.add_assoc] at fetchedCall
  have sequence : code.CallSequence entries (UpTo start (start + arguments.length + 2)) start
      (start + arguments.length + 1) (entries.getD procedure 0) := by
    refine ⟨by omega, fetchedPush, ?_, fetchedCall, ?_, fun _ behind before => ⟨behind, before⟩,
      settled⟩
    · intro index behind before
      obtain ⟨instruction, member, fetched⟩ := hasPasses.get behind (by simp; omega)
      obtain ⟨address, _, rfl⟩ := List.mem_map.mp member
      exact ⟨_, fetched⟩
    · rw [List.getD_eq_getElem?_getD, List.getElem?_eq_getElem inside, Option.getD_some]
      exact List.getElem_mem inside
  refine ⟨?_, settled_of_fetched fetchedPush (by simp)⟩
  intro index instruction behind before fetched
  rcases Nat.lt_or_eq_of_le behind with later | rfl
  · rcases Nat.lt_or_eq_of_le (Nat.le_of_lt_succ before) with earlier | rfl
    · obtain ⟨argument, fetchedPass⟩ := sequence.passes index later earlier
      cases fetched.symm.trans fetchedPass
      exact .pass sequence later earlier
    · cases fetched.symm.trans fetchedCall
      exact .call sequence
  · cases fetched.symm.trans fetchedPush
    exact .pushReturn sequence

/-- Control enters the code of a command at its beginning, or comes back from a call in it, and leaves
it at its end. -/
theorem Command.flows {command : Command} (valid : command.Valid cells parameterCounts)
    (known : parameterCounts.length ≤ entries.length)
    (has : code.Has start (command.code entries start))
    (settled : code.Settled (start + command.size)) :
    code.Flows entries (UpTo start (start + command.size)) False start (start + command.size) ∧
      code.Settled start := by
  induction command generalizing start with
  | skip =>
    refine ⟨?_, settled⟩
    intro index instruction behind before
    exact absurd before (Nat.not_lt.mpr behind)
  | sequence first second firstIh secondIh =>
    obtain ⟨hasFirst, hasSecond⟩ := has.append
    rw [length_code] at hasSecond
    rw [size, ← Nat.add_assoc] at settled ⊢
    obtain ⟨secondFlows, settledMiddle⟩ := secondIh valid.2 hasSecond settled
    obtain ⟨firstFlows, settledStart⟩ := firstIh valid.1 hasFirst settledMiddle
    exact ⟨(firstFlows.widen (Nat.le_refl _) (by omega)).append
      (secondFlows.widen (by omega) (Nat.le_refl _)), settledStart⟩
  | read address => exact flows_plain has (by simp [Command.code, Opcode.isPlain]) rfl settled
  | write value =>
    have plain : AllPlain ((write value).code entries start) := by
      simpa [Command.code, Opcode.isPlain] using value.allPlain_code
    exact flows_plain has plain (congrArg (start + ·) (length_code ..)) settled
  | assign address value =>
    have plain : AllPlain ((assign address value).code entries start) := by
      simpa [Command.code, Opcode.isPlain] using value.allPlain_code
    exact flows_plain has plain (congrArg (start + ·) (length_code ..)) settled
  | choose condition body other bodyIh otherIh =>
    obtain ⟨hasFirst, hasSecond⟩ := has.append
    have hasBody : code.Has (start + condition.size + 1)
        (body.code entries (start + condition.size + 1)) := hasFirst.append.2.cons.2
    obtain ⟨fetchedJump, hasOther⟩ := hasSecond.cons
    have final : start + size (.choose condition body other) =
        start + condition.size + 1 + body.size + 1 + other.size := by
      rw [size]
      omega
    rw [guarded_end] at fetchedJump hasOther
    rw [final] at settled ⊢
    obtain ⟨otherFlows, settledOther⟩ := otherIh valid.2.2 hasOther settled
    obtain ⟨bodyFlows, settledBody⟩ :=
      bodyIh valid.2.1 hasBody (settled_of_fetched fetchedJump (by simp))
    obtain ⟨conditionFlows, settledStart⟩ :=
      @Condition.flows _ _ entries _ _ (start + condition.size + 1 + body.size + 1 + other.size) _
        hasFirst ⟨by omega, by omega⟩ settledOther (by omega) settledBody
    refine ⟨?_, settledStart⟩
    exact ((conditionFlows.append (bodyFlows.widen (by omega) (by omega))).append
      (.single fetchedJump (.jump ⟨by omega, by omega⟩ settled))).append
        (otherFlows.widen (by omega) (Nat.le_refl _))
  | loop condition body ih =>
    obtain ⟨hasFirst, hasJump⟩ := has.append
    have hasBody : code.Has (start + condition.size + 1)
        (body.code entries (start + condition.size + 1)) := hasFirst.append.2.cons.2
    have fetchedJump := hasJump.cons.1
    have final : start + size (.loop condition body) =
        start + condition.size + 1 + body.size + 1 := by
      rw [size]
      omega
    rw [guarded_end] at fetchedJump
    rw [final] at settled ⊢
    obtain ⟨bodyFlows, settledBody⟩ := ih valid.2 hasBody (settled_of_fetched fetchedJump (by simp))
    obtain ⟨conditionFlows, settledStart⟩ :=
      @Condition.flows _ _ entries _ _ (start + condition.size + 1 + body.size + 1) _
        hasFirst ⟨by omega, Nat.le_refl _⟩ settled (by omega) settledBody
    refine ⟨?_, settledStart⟩
    exact (conditionFlows.append (bodyFlows.widen (by omega) (by omega))).append
      (.single fetchedJump (.jump ⟨Nat.le_refl _, by omega⟩ settledStart))
  | call procedure arguments =>
    have inside := (List.getElem?_eq_some_iff.mp valid.1).1
    exact flows_call (Nat.lt_of_lt_of_le inside known) has settled

end Core

end Pascalet
