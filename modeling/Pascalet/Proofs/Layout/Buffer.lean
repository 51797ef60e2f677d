import Pascalet.Compiler.Draft

namespace Pascalet

namespace Buffer

def extend (buffer : Buffer) (code : List Instruction) (waiting : List Nat) : Buffer :=
  { buffer with
    instructions := buffer.instructions ++ code.toArray
    pending := buffer.pending ++ waiting }

def PendingInside (buffer : Buffer) : Prop :=
  ∀ index ∈ buffer.pending, index < buffer.size

variable {buffer : Buffer} {code more : List Instruction} {waiting others : List Nat}

@[simp]
theorem size_extend : (buffer.extend code waiting).size = buffer.size + code.length := by
  simp [extend, size]

@[simp]
theorem nextIndex_extend :
    (buffer.extend code waiting).nextIndex = buffer.nextIndex + code.length :=
  size_extend

@[simp]
theorem pending_extend : (buffer.extend code waiting).pending = buffer.pending ++ waiting := rfl

@[simp]
theorem extend_nil : buffer.extend [] [] = buffer := by
  simp [extend]

@[simp]
theorem extend_extend : (buffer.extend code waiting).extend more others =
    buffer.extend (code ++ more) (waiting ++ others) := by
  simp [extend]

theorem emit_eq_extend (opcode : Opcode) (argument : Argument) :
    buffer.emit opcode argument = buffer.extend [⟨opcode, argument⟩] [] := by
  simp [emit, extend]

theorem emitJump_eq_extend (opcode : Opcode) :
    buffer.emitJump opcode =
      buffer.extend [⟨opcode, .integer placeholder⟩] [buffer.nextIndex] := by
  simp [emitJump, emitAt, emit, extend]

theorem PendingInside.extend (inside : buffer.PendingInside)
    (placed : ∀ index ∈ waiting, index < buffer.size + code.length) :
    (buffer.extend code waiting).PendingInside := by
  intro index found
  rw [pending_extend, List.mem_append] at found
  rw [size_extend]
  rcases found with old | new
  · exact Nat.lt_add_right _ (inside index old)
  · exact placed index new

theorem patch_extend (inside : buffer.PendingInside) (code : List Instruction) (jump : Instruction)
    (more : List Instruction) {index : Nat} (target : Int)
    (placed : index = buffer.size + code.length) (awaited : index ∈ waiting) :
    (buffer.extend (code ++ jump :: more) waiting).patch index target =
      .ok (buffer.extend (code ++ ⟨jump.opcode, .integer target⟩ :: more)
        (waiting.erase index)) := by
  have fresh : index ∉ buffer.pending := by
    intro old
    have := inside index old
    omega
  have modified : (buffer.instructions.toList ++ (code ++ jump :: more)).modify index
      (fun jump => { jump with argument := .integer target }) =
      buffer.instructions.toList ++ (code ++ ⟨jump.opcode, .integer target⟩ :: more) := by
    have split : index = (buffer.instructions.toList ++ code).length := by
      simp [placed, size]
    rw [← List.append_assoc, split]
    exact (List.modifyTailIdx_add _ 0 _ _).trans (by simp)
  have instructions : ((buffer.instructions ++ (code ++ jump :: more).toArray).modify index
      (fun jump => { jump with argument := .integer target })) =
      buffer.instructions ++ (code ++ ⟨jump.opcode, .integer target⟩ :: more).toArray := by
    apply Array.toList_inj.mp
    simpa using modified
  simp only [patch, extend, Int.natCast_nonneg, Int.toNat_natCast, List.mem_append, awaited,
    or_true, and_self, ↓reduceIte, instructions, List.erase_append_right _ fresh]

theorem patch_extend_of_lt (code : List Instruction) {index : Nat} (target : Int)
    (placed : index < buffer.size) (behind : ∀ other ∈ waiting, buffer.size ≤ other) :
    (buffer.extend code waiting).patch index target =
      (buffer.patch index target).map (·.extend code waiting) := by
  have notBehind : index ∉ waiting := by
    intro found
    have := behind index found
    omega
  by_cases awaited : index ∈ buffer.pending
  · have instructions : ((buffer.instructions ++ code.toArray).modify index
        (fun jump => { jump with argument := .integer target })) =
        buffer.instructions.modify index (fun jump => { jump with argument := .integer target }) ++
          code.toArray := by
      unfold size at placed
      apply Array.ext_getElem?
      intro position
      simp only [Array.getElem?_modify, Array.getElem?_append, Array.size_modify]
      split <;> grind
    simp only [patch, extend, Int.natCast_nonneg, Int.toNat_natCast, List.mem_append, awaited,
      true_or, and_self, ↓reduceIte, instructions, List.erase_append_left _ awaited]
    rfl
  · simp only [patch, extend, Int.toNat_natCast, List.mem_append, awaited, notBehind, or_self,
      and_false, ↓reduceIte]
    rfl

theorem patch_setAddress (buffer : Buffer) (index target address : Int) :
    { buffer with nextAddress := address }.patch index target =
      (buffer.patch index target).map fun patched => { patched with nextAddress := address } := by
  unfold patch
  split <;> rfl

theorem size_of_patch {patched : Buffer} {index target : Int}
    (done : buffer.patch index target = .ok patched) : patched.size = buffer.size := by
  unfold patch at done
  split at done
  · cases done
    simp [size]
  · cases done

theorem PendingInside.patch {patched : Buffer} {index target : Int} (inside : buffer.PendingInside)
    (done : buffer.patch index target = .ok patched) : patched.PendingInside := by
  intro other found
  rw [size_of_patch done]
  unfold Buffer.patch at done
  split at done
  · cases done
    exact inside other (List.mem_of_mem_erase found)
  · cases done

end Buffer

end Pascalet
