import Pascalet.Proofs.Machine.Instruction
import Pascalet.Proofs.Numeral.Decimal

namespace Pascalet

def Buffer.Has (code : Buffer) (start : Nat) (block : List Instruction) : Prop :=
  ∀ index instruction, block[index]? = some instruction →
    code.instructions[start + index]? = some instruction

namespace Buffer

variable {code : Buffer} {start : Nat}

theorem Has.append {first second : List Instruction} (has : code.Has start (first ++ second)) :
    code.Has start first ∧ code.Has (start + first.length) second := by
  constructor
  · intro index instruction found
    exact has index instruction (List.getElem?_append_left (List.getElem?_eq_some_iff.mp found).1 ▸ found)
  · intro index instruction found
    rw [Nat.add_assoc]
    apply has
    rw [List.getElem?_append_right (by omega), Nat.add_sub_cancel_left]
    exact found

theorem Has.cons {first : Instruction} {rest : List Instruction} (has : code.Has start (first :: rest)) :
    code.instructions[start]? = some first ∧ code.Has (start + 1) rest := by
  constructor
  · exact has 0 first rfl
  · intro index instruction found
    rw [Nat.add_right_comm]
    exact has (index + 1) instruction found

theorem Has.end_le {block : List Instruction} (has : code.Has start block) (some : 0 < block.length) :
    start + block.length ≤ code.size := by
  have last := has (block.length - 1) _ (List.getElem?_eq_getElem (by omega))
  have inside := (Array.getElem?_eq_some_iff.mp last).1
  simp only [size]
  omega

theorem has_toList (code : Buffer) : code.Has 0 code.instructions.toList := by
  intro index instruction found
  rw [Nat.zero_add, ← Array.getElem?_toList]
  exact found

end Buffer

/-- An instruction whose argument is of its kind: an address inside a memory of this size, a constant
that is a number. -/
def Instruction.Sound (memorySize : Nat) (instruction : Instruction) : Prop :=
  match instruction.opcode.operand with
  | .absent => instruction.argument = .absent ∧ ∀ name, instruction.opcode ≠ .other name
  | .integer => ∃ value : Nat, instruction.argument = .integer value ∧
      (instruction.opcode.hasAddress = true → value < memorySize)
  | .numeral => ∃ text, instruction.argument = .text text ∧ Numeral.IsDecimal text.toList

theorem Instruction.Sound.exists_address {memorySize : Nat} {opcode : Opcode} {argument : Argument}
    (sound : Sound memorySize ⟨opcode, argument⟩) (addressed : opcode.hasAddress = true) :
    ∃ address : Nat, argument = .integer address ∧ address < memorySize := by
  cases opcode with
  | load | store | pass =>
    obtain ⟨value, same, inside⟩ := sound
    exact ⟨value, same, inside addressed⟩
  | _ => cases addressed

theorem Instruction.Sound.address {memorySize address : Nat} {opcode : Opcode}
    (sound : Sound memorySize ⟨opcode, .integer address⟩) (addressed : opcode.hasAddress = true) :
    address < memorySize := by
  obtain ⟨value, same, inside⟩ := sound.exists_address addressed
  obtain rfl : address = value := Int.ofNat_inj.mp (Argument.integer.inj same)
  exact inside

theorem Instruction.Sound.constant {memorySize : Nat} {text : String}
    (sound : Sound memorySize ⟨.constant, .text text⟩) : Numeral.IsDecimal text.toList := by
  obtain ⟨same, equal, decimal⟩ := sound
  cases equal
  exact decimal

theorem Instruction.Sound.resize {memorySize other : Nat} {instruction : Instruction}
    (sound : instruction.Sound memorySize)
    (inside : ∀ address : Nat, instruction.argument = .integer address →
      instruction.opcode.hasAddress = true → address < other) : instruction.Sound other := by
  unfold Sound at sound ⊢
  split at sound
  · exact sound
  · obtain ⟨value, same, _⟩ := sound
    exact ⟨value, same, inside value same⟩
  · exact sound

theorem Instruction.Sound.mono {memorySize more : Nat} {instruction : Instruction}
    (sound : instruction.Sound memorySize) (le : memorySize ≤ more) : instruction.Sound more := by
  obtain ⟨opcode, argument⟩ := instruction
  refine sound.resize fun address same addressed => ?_
  subst same
  exact Nat.lt_of_lt_of_le (sound.address addressed) le

def Buffer.Sound (code : Buffer) (memorySize : Nat) : Prop :=
  ∀ instruction ∈ code.instructions, instruction.Sound memorySize

theorem Buffer.Sound.address {code : Buffer} {memorySize pc address : Nat} {opcode : Opcode}
    (sound : code.Sound memorySize) (fetched : code.instructions[pc]? = some ⟨opcode, .integer address⟩)
    (addressed : opcode.hasAddress = true) : address < memorySize :=
  (sound _ (Array.mem_of_getElem? fetched)).address addressed

theorem Buffer.Sound.constant {code : Buffer} {memorySize pc : Nat} {text : String}
    (sound : code.Sound memorySize) (fetched : code.instructions[pc]? = some ⟨.constant, .text text⟩) :
    Numeral.IsDecimal text.toList :=
  (sound _ (Array.mem_of_getElem? fetched)).constant

theorem Relation.isZero_apply (relation : Relation) (left right : Binary64) :
    (relation.apply left right).isZero = !relation.holds left right := by
  have zero : Binary64.zero.isZero = true := by decide +kernel
  have one : Binary64.one.isZero = false := by decide +kernel
  cases holds : relation.holds left right <;> simp [apply, holds, zero, one]

namespace Machine

variable {code : Buffer} {memorySize start : Nat} {stack : List Binary64} {returns : List Nat}
  {state : Core.State}

theorem moves_expression (sound : code.Sound memorySize)
    (expression : Core.Expression) (has : code.Has start expression.code) :
    Moves code memorySize expression.code.length ⟨start, stack, returns, state⟩
      ⟨start + expression.code.length, expression.value state.cells :: stack, returns, state⟩ := by
  induction expression generalizing start stack with
  | cell address =>
    have fetched := has.cons.1
    have inside := sound.address fetched rfl
    exact moves_load (.inl rfl) fetched inside
  | constant text =>
    have fetched := has.cons.1
    have decimal := sound.constant fetched
    obtain ⟨value, number⟩ := Option.isSome_iff_exists.mp (Numeral.real?_isSome decimal)
    have value_eq : (Core.Expression.constant text).value state.cells = value := by
      rw [Core.Expression.value, number, Option.getD_some]
    rw [value_eq]
    exact moves_constant fetched number
  | negate operand ih =>
    obtain ⟨hasOperand, hasNegate⟩ := has.append
    refine ((ih hasOperand).trans (moves_negate hasNegate.cons.1)).cast ?_ ?_
    · simp [Core.Expression.code]
    · simp [Core.Expression.code, Nat.add_assoc]
  | binary operator left right leftIh rightIh =>
    obtain ⟨hasBoth, hasOperator⟩ := has.append
    obtain ⟨hasLeft, hasRight⟩ := hasBoth.append
    rw [List.length_append, ← Nat.add_assoc] at hasOperator
    refine (((leftIh hasLeft).trans (rightIh hasRight)).trans
      (moves_arithmetic hasOperator.cons.1)).cast ?_ ?_
    · simp [Core.Expression.code, Nat.add_assoc]
    · simp [Core.Expression.code, Nat.add_assoc]

theorem moves_condition (sound : code.Sound memorySize)
    (condition : Core.Condition) {target : Nat} {rest : List Instruction}
    (has : code.Has start (condition.code ++ ⟨.jumpIfZero, .integer target⟩ :: rest))
    (inside : target ≤ code.size) :
    Moves code memorySize (condition.size + 1) ⟨start, stack, returns, state⟩
      ⟨if condition.holds state.cells then start + condition.size + 1 else target,
        stack, returns, state⟩ := by
  obtain ⟨hasCondition, hasJump⟩ := has.append
  obtain ⟨hasBoth, hasCompare⟩ := hasCondition.append
  obtain ⟨hasLeft, hasRight⟩ := hasBoth.append
  rw [List.length_append, ← Nat.add_assoc] at hasCompare
  have length : condition.size =
      condition.left.code.length + condition.right.code.length + 1 := by
    simp [Core.Condition.size, Core.Condition.code, Nat.add_assoc]
  have reached : Moves code memorySize condition.size ⟨start, stack, returns, state⟩
      ⟨start + condition.size, condition.relation.apply (condition.left.value state.cells)
        (condition.right.value state.cells) :: stack, returns, state⟩ := by
    refine (((moves_expression sound condition.left hasLeft).trans
      (moves_expression sound condition.right hasRight)).trans
      (moves_compare hasCompare.cons.1)).cast length.symm ?_
    omega
  refine (reached.trans (moves_jumpIfZero hasJump.cons.1 inside)).cast rfl ?_
  rw [Relation.isZero_apply]
  change (if (!condition.holds state.cells) = true then target else _) = _
  cases condition.holds state.cells <;> rfl

theorem moves_passes (sound : code.Sound memorySize)
    (arguments : List Nat)
    (has : code.Has start (arguments.map fun (address : Nat) => ⟨.pass, .integer address⟩)) :
    Moves code memorySize arguments.length ⟨start, stack, returns, state⟩
      ⟨start + arguments.length, (arguments.map state.cells).reverse ++ stack, returns, state⟩ := by
  induction arguments generalizing start stack with
  | nil => exact .none _
  | cons address rest ih =>
    obtain ⟨fetched, hasRest⟩ := has.cons
    have inside := sound.address fetched rfl
    rw [List.map_cons, List.reverse_cons, List.append_assoc, List.length_cons]
    refine ((moves_load (.inr rfl) fetched inside).trans (ih hasRest)).cast ?_ ?_
    · omega
    · omega

theorem storeAll_succ (firstCell count : Nat) :
    Core.storeAll firstCell (count + 1) =
      ⟨.store, .integer (firstCell + count : Nat)⟩ :: Core.storeAll firstCell count := by
  simp [Core.storeAll, List.range'_concat]

theorem pass_append (state : Core.State) (firstCell : Nat) (values : List Binary64)
    (last : Binary64) :
    (state.set (firstCell + values.length) last).pass firstCell values =
      state.pass firstCell (values ++ [last]) := by
  have cells : ∀ cell, ((state.set (firstCell + values.length) last).pass firstCell values).cells cell =
      (state.pass firstCell (values ++ [last])).cells cell := by
    intro cell
    simp only [Core.State.pass, Core.State.set]
    rcases Nat.lt_or_ge cell firstCell with before | behind
    · simp [show ¬ firstCell ≤ cell by omega, show cell ≠ firstCell + values.length by omega]
    · simp only [behind, ↓reduceIte]
      rcases Nat.lt_or_ge (cell - firstCell) values.length with inside | outside
      · rw [List.getElem?_append_left inside, List.getElem?_eq_getElem inside]
        rfl
      · rw [List.getElem?_append_right outside, List.getElem?_eq_none outside]
        by_cases here : cell = firstCell + values.length
        · simp [here]
        · have absent : [last][cell - firstCell - values.length]? = none :=
            List.getElem?_eq_none (by simp; omega)
          simp [here, absent]
  exact Core.State.ext (funext cells) rfl rfl

theorem moves_stores (sound : code.Sound memorySize)
    {firstCell : Nat} (values : List Binary64)
    (has : code.Has start (Core.storeAll firstCell values.length)) :
    Moves code memorySize values.length ⟨start, values ++ stack, returns, state⟩
      ⟨start + values.length, stack, returns, state.pass firstCell values.reverse⟩ := by
  induction values generalizing start state with
  | nil =>
    have same : state.pass firstCell [] = state := by
      simp [Core.State.pass]
    rw [List.reverse_nil, same]
    exact .none _
  | cons value rest ih =>
    rw [List.length_cons, storeAll_succ] at has
    obtain ⟨fetched, hasRest⟩ := has.cons
    have inside := sound.address fetched rfl
    rw [List.reverse_cons, ← pass_append, List.length_reverse, List.length_cons]
    refine ((moves_store fetched inside).trans (ih hasRest)).cast ?_ ?_
    · omega
    · omega

theorem moves_reserves (count : Nat) (has : code.Has start (Core.reserveAll count)) :
    Moves code memorySize count ⟨start, stack, returns, state⟩
      ⟨start + count, stack, returns, state⟩ := by
  induction count generalizing start with
  | zero => exact .none _
  | succ count ih =>
    obtain ⟨fetched, hasRest⟩ := has.cons
    refine ((moves_note (.inr rfl) fetched).trans (ih hasRest)).cast ?_ ?_
    · omega
    · omega

end Machine

end Pascalet
