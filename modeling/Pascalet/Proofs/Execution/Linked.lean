import Pascalet.Proofs.Core.Valid
import Pascalet.Proofs.Execution.Block

namespace Pascalet

namespace Instruction

variable {memorySize : Nat}

theorem sound_absent {opcode : Opcode} (takesNone : opcode.operand = .absent)
    (known : ∀ name, opcode ≠ .other name) : Sound memorySize ⟨opcode, .absent⟩ := by
  rw [Sound, takesNone]
  exact ⟨rfl, known⟩

theorem sound_address {opcode : Opcode} {address : Nat} (takesInteger : opcode.operand = .integer)
    (inside : address < memorySize) : Sound memorySize ⟨opcode, .integer address⟩ := by
  rw [Sound, takesInteger]
  exact ⟨address, rfl, fun _ => inside⟩

theorem sound_number {opcode : Opcode} {value : Nat} (takesInteger : opcode.operand = .integer)
    (unaddressed : opcode.hasAddress = false) : Sound memorySize ⟨opcode, .integer value⟩ := by
  rw [Sound, takesInteger]
  refine ⟨value, rfl, fun addressed => ?_⟩
  rw [unaddressed] at addressed
  cases addressed

def AllSound (memorySize : Nat) (block : List Instruction) : Prop :=
  ∀ instruction ∈ block, instruction.Sound memorySize

@[simp]
theorem allSound_nil : AllSound memorySize [] := by
  simp [AllSound]

@[simp]
theorem allSound_cons {first : Instruction} {rest : List Instruction} :
    AllSound memorySize (first :: rest) ↔ first.Sound memorySize ∧ AllSound memorySize rest := by
  simp [AllSound]

@[simp]
theorem allSound_append {first second : List Instruction} :
    AllSound memorySize (first ++ second) ↔
      AllSound memorySize first ∧ AllSound memorySize second :=
  List.forall_mem_append

end Instruction

namespace Core

open Instruction

section Sound

variable {cells start : Nat} {parameterCounts entries : List Nat}

theorem Expression.allSound_code {expression : Expression} (valid : expression.Valid cells) :
    AllSound cells expression.code := by
  induction expression with
  | cell address => simpa [code] using sound_address rfl valid
  | constant text =>
    have sound : Instruction.Sound cells ⟨.constant, .text text⟩ := ⟨text, rfl, valid⟩
    simpa [code] using sound
  | negate operand ih => simpa [code] using ⟨ih valid, sound_absent rfl (by simp)⟩
  | binary operator left right leftIh rightIh =>
    simpa [code] using ⟨leftIh valid.1, rightIh valid.2, sound_absent rfl (by simp)⟩

theorem Condition.allSound_code {condition : Condition} (valid : condition.Valid cells) :
    AllSound cells condition.code := by
  simpa [code] using ⟨Expression.allSound_code valid.1, Expression.allSound_code valid.2,
    sound_absent rfl (by simp)⟩

theorem Command.allSound_code {command : Command} (valid : command.Valid cells parameterCounts) :
    AllSound cells (command.code entries start) := by
  induction command generalizing start with
  | skip => simp [code]
  | sequence first second firstIh secondIh =>
    simpa [code] using ⟨firstIh valid.1, secondIh valid.2⟩
  | read address => simpa [code] using ⟨sound_absent rfl (by simp), sound_address rfl valid⟩
  | write value =>
    simpa [code] using ⟨Expression.allSound_code valid, sound_absent rfl (by simp)⟩
  | assign address value =>
    simpa [code] using ⟨Expression.allSound_code valid.2, sound_address rfl valid.1⟩
  | choose condition body other bodyIh otherIh =>
    simp only [code, allSound_append, allSound_cons]
    exact ⟨⟨Condition.allSound_code valid.1, sound_number rfl rfl, bodyIh valid.2.1⟩,
      sound_number rfl rfl, otherIh valid.2.2⟩
  | loop condition body ih =>
    simp only [code, allSound_append, allSound_cons, allSound_nil, and_true]
    exact ⟨⟨Condition.allSound_code valid.1, sound_number rfl rfl, ih valid.2⟩,
      sound_number rfl rfl⟩
  | call procedure arguments =>
    simp only [code, allSound_append, allSound_cons, allSound_nil, and_true]
    refine ⟨⟨sound_number rfl rfl, ?_⟩, sound_number rfl rfl⟩
    rw [AllSound, List.forall_mem_map]
    exact fun address found => sound_address rfl (valid.2 address found)

theorem allSound_reserveAll (count : Nat) : AllSound cells (reserveAll count) := by
  intro instruction found
  rw [(List.mem_replicate.mp found).2]
  exact sound_number rfl rfl

theorem allSound_storeAll {firstCell count : Nat} (inside : firstCell + count ≤ cells) :
    AllSound cells (storeAll firstCell count) := by
  rw [AllSound, storeAll, List.forall_mem_map]
  intro address found
  rw [List.mem_reverse, List.mem_range'_1] at found
  exact sound_address rfl (by omega)

theorem Procedure.allSound_code {procedure : Procedure}
    (valid : procedure.Valid cells parameterCounts) :
    AllSound cells (procedure.code entries start) := by
  simp only [code, allSound_append, allSound_cons, allSound_nil, and_true]
  exact ⟨⟨⟨allSound_storeAll valid.parameters, allSound_reserveAll _⟩,
    Command.allSound_code valid.body⟩, sound_number rfl rfl, sound_absent rfl (by simp)⟩

theorem allSound_itemsCode {items : List Item} (valid : ItemsValid cells parameterCounts items) :
    AllSound cells (itemsCode entries start items) := by
  induction items generalizing parameterCounts entries start with
  | nil => simp [itemsCode]
  | cons item rest ih =>
    cases item with
    | vars count =>
      simp only [itemsCode, allSound_append]
      exact ⟨allSound_reserveAll count, ih valid⟩
    | procedure declared =>
      simp only [itemsCode, allSound_append, allSound_cons]
      exact ⟨⟨sound_number rfl rfl, Procedure.allSound_code valid.1⟩, ih valid.2⟩

theorem Program.allSound_code {program : Program} (valid : program.Valid cells) :
    AllSound cells (program.code start) := by
  simp only [code, allSound_append, allSound_cons, allSound_nil, and_true]
  exact ⟨⟨⟨sound_absent rfl (by simp), allSound_itemsCode valid.items⟩,
    Command.allSound_code valid.body⟩, sound_absent rfl (by simp)⟩

end Sound

section Entries

variable {cells start : Nat} {parameterCounts entries : List Nat}

/-- Entries behind those of the procedures that can be called make no difference. -/
theorem Command.code_append {command : Command} (valid : command.Valid cells parameterCounts)
    (known : parameterCounts.length ≤ entries.length) (others : List Nat) :
    command.code (entries ++ others) start = command.code entries start := by
  induction command generalizing start with
  | skip | read _ | write _ | assign _ _ => rfl
  | sequence first second firstIh secondIh =>
    rw [code, code, firstIh valid.1, secondIh valid.2]
  | choose condition body other bodyIh otherIh =>
    simp only [code, bodyIh valid.2.1, otherIh valid.2.2]
  | loop condition body ih => simp only [code, ih valid.2]
  | call procedure arguments =>
    have inside := (List.getElem?_eq_some_iff.mp valid.1).1
    simp only [code, List.getD_eq_getElem?_getD,
      List.getElem?_append_left (Nat.lt_of_lt_of_le inside known)]

/-- The code of each procedure begins at its entry, and it calls no procedure that is not there. -/
def Linked (cells : Nat) (code : Buffer) (entries : List Nat) (procedures : List Procedure) : Prop :=
  ∀ (number : Nat) (called : Procedure), procedures[number]? = some called →
    ∃ entry, entries[number]? = some entry ∧ code.Has entry (called.code entries entry) ∧
      called.body.Valid cells (procedures.map (·.parameterCount))

theorem linked_itemsCode {code : Buffer} {items : List Item}
    (valid : ItemsValid cells parameterCounts items)
    (known : entries.length = parameterCounts.length)
    (has : code.Has start (itemsCode entries start items)) (number : Nat) (called : Procedure)
    (found : (procedures items)[number]? = some called) :
    ∃ entry, (itemsEntries entries start items)[entries.length + number]? = some entry ∧
      code.Has entry (called.code (itemsEntries entries start items) entry) ∧
      called.body.Valid cells (parameterCounts ++ (procedures items).map (·.parameterCount)) := by
  induction items generalizing parameterCounts entries start number with
  | nil => cases found
  | cons item rest ih =>
    cases item with
    | vars count =>
      have hasRest := has.append.2
      rw [length_reserveAll] at hasRest
      exact ih valid known hasRest number found
    | procedure declared =>
      obtain ⟨hasFirst, hasRest⟩ := has.append
      obtain ⟨others, extended⟩ := itemsEntries_eq_append (entries ++ [start + 1])
        (start + 1 + declared.size) rest
      have knownMore : (entries ++ [start + 1]).length =
          (parameterCounts ++ [declared.parameterCount]).length := by
        simp [known]
      cases number with
      | zero =>
        obtain rfl : declared = called := by simpa [procedures] using found
        refine ⟨start + 1, ?_, ?_, ?_⟩
        · simp [itemsEntries, extended]
        · rw [itemsEntries, extended, Procedure.code,
            Command.code_append valid.1.body (Nat.le_of_eq knownMore.symm)]
          exact hasFirst.cons.2
        · have more := valid.1.body.mono (Nat.le_refl cells)
            ((procedures rest).map (·.parameterCount))
          rwa [List.append_assoc] at more
      | succ number =>
        have placed : start + (⟨.jump, .integer (start + groupSize (.procedure declared :: rest) : Nat)⟩ ::
            declared.code (entries ++ [start + 1]) (start + 1)).length = start + 1 + declared.size := by
          simp only [List.length_cons, Procedure.length_code]
          omega
        rw [placed] at hasRest
        have later := ih valid.2 knownMore hasRest number found
        rw [List.length_append, List.append_assoc] at later
        rwa [Nat.add_comm number, ← Nat.add_assoc]

theorem Program.linked {code : Buffer} {program : Program} (valid : program.Valid cells)
    (has : code.Has start (program.code start)) :
    Linked cells code (program.entries start) program.procedures := by
  intro number called found
  obtain ⟨hasItems, _⟩ := has.append.1.append
  have linked := linked_itemsCode valid.items rfl hasItems.cons.2 number called found
  rwa [List.length_nil, Nat.zero_add, List.nil_append] at linked

end Entries

end Core

end Pascalet
