import Pascalet.Code.ObjectText
import Pascalet.Proofs.Numeral.Accepted
import Pascalet.Proofs.Text.Segments

namespace Pascalet

namespace Opcode

theorem mem_all {opcode : Opcode} (known : ∀ name, opcode ≠ .other name) : opcode ∈ all := by
  cases opcode with
  | other name => exact absurd rfl (known name)
  | arithmetic operator => cases operator <;> decide
  | compare relation => cases relation <;> decide
  | _ => decide

theorem ofMnemonic?_mnemonic : ∀ opcode ∈ all, ofMnemonic? opcode.mnemonic = some opcode := by
  decide +kernel

theorem isInk_mnemonic {opcode : Opcode} (known : opcode ∈ all) : opcode.mnemonic.toList ≠ [] ∧
    ∀ c ∈ opcode.mnemonic.toList, Text.isInk c = true := by
  have checked : (all.all fun opcode =>
      !opcode.mnemonic.toList.isEmpty && opcode.mnemonic.toList.all Text.isInk) = true := by
    decide +kernel
  have here := List.all_eq_true.mp checked opcode known
  rw [Bool.and_eq_true, List.all_eq_true] at here
  exact ⟨by simpa using here.1, here.2⟩

end Opcode

/-- An instruction that object text can hold: its argument is of the kind that its opcode takes, an
integer is not too long, and a numeral is a real number with no blanks around it. -/
inductive Instruction.Writable : Instruction → Prop where
  | absent {opcode : Opcode} (takes : opcode.operand = .absent) (known : opcode ∈ Opcode.all) :
    Writable ⟨opcode, .absent⟩
  | integer {opcode : Opcode} {value : Int} (takes : opcode.operand = .integer)
    (known : opcode ∈ Opcode.all) (short : Numeral.isWritable value = true) :
    Writable ⟨opcode, .integer value⟩
  | numeral {opcode : Opcode} {text : String} (takes : opcode.operand = .numeral)
    (known : opcode ∈ Opcode.all) (accepted : (Numeral.real? text.toList).isSome = true)
    (trimmed : Text.trim text.toList = text.toList) :
    Writable ⟨opcode, .text text⟩

namespace ObjectText

open Text

section Reading

variable {opcode : Opcode}

theorem readLine_of_split {line operand : List Char} (known : opcode ∈ Opcode.all)
    (trimmed : trim line = line)
    (split : splitWord line = (opcode.mnemonic.toList, operand)) :
    readLine line = (readArgument opcode operand).map fun argument => some ⟨opcode, argument⟩ := by
  obtain ⟨c, rest, spelled⟩ := List.exists_cons_of_ne_nil (Opcode.isInk_mnemonic known).1
  have found := Opcode.ofMnemonic?_mnemonic opcode known
  rw [← String.ofList_toList (s := opcode.mnemonic), spelled] at found
  rw [readLine, trimmed, split, spelled]
  simp only [found]

theorem solid_mnemonic (known : opcode ∈ Opcode.all) : Solid opcode.mnemonic.toList :=
  solid_of_ink (Opcode.isInk_mnemonic known).2

theorem readLine_mnemonic (known : opcode ∈ Opcode.all) :
    readLine opcode.mnemonic.toList =
      (readArgument opcode []).map fun argument => some ⟨opcode, argument⟩ := by
  have solid := solid_mnemonic known
  exact readLine_of_split known solid.trim_eq_self (splitWord_eq_self solid)

theorem readLine_mnemonic_append {operand : List Char} (known : opcode ∈ Opcode.all)
    (solid : Solid operand) (present : operand ≠ []) :
    readLine (opcode.mnemonic.toList ++ ' ' :: operand) =
      (readArgument opcode operand).map fun argument => some ⟨opcode, argument⟩ := by
  have word := solid_mnemonic known
  obtain ⟨d, others, spelledOperand⟩ := List.exists_cons_of_ne_nil present
  obtain ⟨c, rest, spelled⟩ := List.exists_cons_of_ne_nil (Opcode.isInk_mnemonic known).1
  apply readLine_of_split known
  · apply trim_eq_self
    · intro first found
      rw [spelled] at found word
      cases found
      exact word c List.mem_cons_self
    · intro last found
      rw [spelledOperand, List.getLast?_append, List.getLast?_cons_cons, ← spelledOperand] at found
      rcases Option.or_eq_some_iff.mp found with behind | ⟨_, before⟩
      · exact solid last (List.mem_of_getLast? behind)
      · exact word last (List.mem_of_getLast? before)
  · exact splitWord_append word fun first found => solid first (List.mem_of_mem_head? found)

theorem readArgument_absent (takes : opcode.operand = .absent) :
    readArgument opcode [] = .ok .absent := by
  simp [readArgument, takes]

theorem readArgument_integer {operand : List Char} {value : Int} (takes : opcode.operand = .integer)
    (present : operand ≠ []) (read : Numeral.integer? operand = some value) :
    readArgument opcode operand = .ok (.integer value) := by
  obtain ⟨c, rest, rfl⟩ := List.exists_cons_of_ne_nil present
  simp [readArgument, takes, read]

theorem readArgument_numeral {operand : List Char} (takes : opcode.operand = .numeral)
    (present : operand ≠ []) (accepted : (Numeral.real? operand).isSome = true) :
    readArgument opcode operand = .ok (.text (String.ofList operand)) := by
  obtain ⟨c, rest, rfl⟩ := List.exists_cons_of_ne_nil present
  simp [readArgument, takes, accepted]

end Reading

/-- The operand of an instruction that can be written. Between it and the mnemonic stands the only
blank of the line. -/
theorem text_of_writable {instruction : Instruction} (writable : instruction.Writable) :
    instruction.opcode ∈ Opcode.all ∧
    (instruction.text = instruction.opcode.mnemonic ∧
        readArgument instruction.opcode [] = .ok instruction.argument ∨
      ∃ operand, operand ≠ [] ∧ Solid operand ∧
        instruction.text.toList = instruction.opcode.mnemonic.toList ++ ' ' :: operand ∧
        readArgument instruction.opcode operand = .ok instruction.argument) := by
  cases writable with
  | absent takes known => exact ⟨known, .inl ⟨rfl, readArgument_absent takes⟩⟩
  | @integer opcode value takes known short =>
    have present := Numeral.toString_ne_nil value
    refine ⟨known, .inr ⟨(toString value).toList, present, ?_, ?_, ?_⟩⟩
    · exact solid_of_ink (Numeral.ink_toString value)
    · simp [Instruction.text, Argument.plain?]
    · exact readArgument_integer takes present (Numeral.integer?_toString short)
  | @numeral opcode number takes known accepted trimmed =>
    have present := Numeral.ne_nil_of_real? accepted
    refine ⟨known, .inr ⟨number.toList, present, ?_, ?_, ?_⟩⟩
    · exact Numeral.solid_of_real? trimmed accepted
    · simp [Instruction.text, Argument.plain?]
    · rw [readArgument_numeral takes present accepted, String.ofList_toList]

theorem readLine_text {instruction : Instruction} (writable : instruction.Writable) :
    readLine instruction.text.toList = .ok (some instruction) := by
  obtain ⟨known, ⟨text, read⟩ | ⟨operand, present, solid, text, read⟩⟩ := text_of_writable writable
  · rw [text, readLine_mnemonic known, read]
    rfl
  · rw [text, readLine_mnemonic_append known solid present, read]
    rfl

theorem isLineBreak_text {instruction : Instruction} (writable : instruction.Writable) :
    ∀ c ∈ instruction.text.toList, isLineBreak c = false := by
  have space : isLineBreak ' ' = false := by decide
  obtain ⟨known, ⟨text, _⟩ | ⟨operand, _, solid, text, _⟩⟩ := text_of_writable writable
  · rw [text]
    exact (solid_mnemonic known).isLineBreak
  · rw [text, List.forall_mem_append, List.forall_mem_cons]
    exact ⟨(solid_mnemonic known).isLineBreak, space, solid.isLineBreak⟩

def characters (instructions : List Instruction) : List Char :=
  instructions.flatMap fun instruction => instruction.text.toList ++ ['\n']

theorem toList_write (buffer : Buffer) : (write buffer).toList = characters buffer.instructions.toList := by
  simp [write, characters, List.flatMap_map]

theorem segments_characters {instructions : List Instruction}
    (writable : ∀ instruction ∈ instructions, instruction.Writable) :
    segments isLineBreak (characters instructions) = instructions.map (·.text.toList) := by
  induction instructions with
  | nil => rfl
  | cons instruction rest ih =>
    rw [List.forall_mem_cons] at writable
    have lines := segments_append_cons (isLineBreak_text writable.1)
      (show isLineBreak '\n' = true by decide) (characters rest)
    rw [List.map_cons, ← ih writable.2, ← lines]
    simp [characters]

theorem ne_carriageReturn {instructions : List Instruction}
    (writable : ∀ instruction ∈ instructions, instruction.Writable) :
    ∀ c ∈ characters instructions, c ≠ '\r' := by
  rintro c found rfl
  obtain ⟨instruction, member, inside⟩ := List.mem_flatMap.mp found
  rcases List.mem_append.mp inside with line | lineEnd
  · exact absurd (isLineBreak_text (writable instruction member) '\r' line) (by decide)
  · exact absurd lineEnd (by decide)

theorem objectLines_characters {instructions : List Instruction}
    (writable : ∀ instruction ∈ instructions, instruction.Writable) :
    objectLines (characters instructions) = instructions.map (·.text.toList) := by
  rw [objectLines, foldCrLf_eq_self (ne_carriageReturn writable), segments_characters writable]

theorem readLines_text {instructions : List Instruction} (number : Nat)
    (writable : ∀ instruction ∈ instructions, instruction.Writable) :
    readLines number (instructions.map (·.text.toList)) = .ok instructions := by
  induction instructions generalizing number with
  | nil => rfl
  | cons instruction rest ih =>
    rw [List.forall_mem_cons] at writable
    rw [List.map_cons, readLines, readLine_text writable.1, ih (number + 1) writable.2]
    rfl

theorem read_write {buffer : Buffer}
    (writable : ∀ instruction ∈ buffer.instructions.toList, instruction.Writable) :
    read (write buffer) = .ok (load buffer.instructions.toList) := by
  rw [read, toList_write, objectLines_characters writable, readLines_text 1 writable]
  rfl

theorem writable_of_readArgument {opcode : Opcode} {operand : List Char} {argument : Argument}
    (known : opcode ∈ Opcode.all) (trimmed : trim operand = operand)
    (read : readArgument opcode operand = .ok argument) :
    (Instruction.mk opcode argument).Writable := by
  cases takes : opcode.operand with
  | absent =>
    cases operand with
    | nil =>
      rw [readArgument_absent takes] at read
      cases read
      exact .absent takes known
    | cons c rest => simp [readArgument, takes] at read
  | integer =>
    cases operand with
    | nil => simp [readArgument, takes] at read
    | cons c rest =>
      simp only [readArgument, takes] at read
      split at read
      next value parsed =>
        cases read
        exact .integer takes known (Numeral.isWritable_of_integer? parsed)
      next => cases read
  | numeral =>
    cases operand with
    | nil => simp [readArgument, takes] at read
    | cons c rest =>
      simp only [readArgument, takes] at read
      split at read
      next accepted =>
        cases read
        rw [← @String.toList_ofList (c :: rest)] at accepted trimmed
        exact .numeral takes known accepted trimmed
      next => cases read

theorem writable_of_readLine {line : List Char} {instruction : Instruction}
    (read : readLine line = .ok (some instruction)) : instruction.Writable := by
  unfold readLine at read
  split at read
  next => cases read
  next mnemonic operand _ split =>
    have trimmed : trim operand = operand := by
      have rest := @trim_splitWord line
      rwa [split] at rest
    split at read
    next => cases read
    next opcode found =>
      have known : opcode ∈ Opcode.all := List.mem_of_find?_eq_some found
      cases parsed : readArgument opcode operand with
      | error fault => simp [parsed, Except.map] at read
      | ok argument =>
        rw [parsed] at read
        cases read
        exact writable_of_readArgument known trimmed parsed

theorem writable_of_readLines {number : Nat} {lines : List (List Char)}
    {instructions : List Instruction} (read : readLines number lines = .ok instructions) :
    ∀ instruction ∈ instructions, instruction.Writable := by
  induction lines generalizing number instructions with
  | nil =>
    cases read
    simp
  | cons line rest ih =>
    unfold readLines at read
    split at read
    next => cases read
    next found here =>
      cases behind : readLines (number + 1) rest with
      | error error => simp [behind, Except.map] at read
      | ok others =>
        rw [behind] at read
        cases read
        intro instruction member
        rcases List.mem_append.mp member with first | later
        · rw [Option.mem_toList] at first
          subst first
          exact writable_of_readLine here
        · exact ih behind instruction later

theorem writable_of_read {text : String} {buffer : Buffer} (done : read text = .ok buffer) :
    buffer = load buffer.instructions.toList ∧
      ∀ instruction ∈ buffer.instructions.toList, instruction.Writable := by
  unfold read at done
  cases lines : readLines 1 (objectLines text.toList) with
  | error error => simp [lines, Except.map] at done
  | ok instructions =>
    rw [lines] at done
    cases done
    exact ⟨rfl, writable_of_readLines lines⟩

end ObjectText

end Pascalet
