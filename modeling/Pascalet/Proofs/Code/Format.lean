import Mathlib.Data.List.Forall2
import Pascalet.Proofs.Code.ObjectText
import Pascalet.Proofs.Numeral.Grammar
import Pascalet.Proofs.Text.Cut

namespace Pascalet

namespace ObjectText

open Text

inductive Fits (opcode : Opcode) (operand : List Char) : Argument → Prop where
  | integer {value : Int} (takes : opcode.operand = .integer)
    (numeral : Numeral.IsInteger operand value) : Fits opcode operand (.integer value)
  | numeral (takes : opcode.operand = .numeral) (numeral : Numeral.IsReal operand) :
    Fits opcode operand (.text (String.ofList operand))

/-- The lines of object text, and what they hold: nothing, a mnemonic, or a mnemonic and its operand
with blanks between them. Blanks may stand around all that. -/
inductive Holds : List Char → Option Instruction → Prop where
  | nothing {line : List Char} (blanks : Blanks line) : Holds line none
  | mnemonic {opcode : Opcode} {before after : List Char} (known : opcode ∈ Opcode.all)
    (takes : opcode.operand = .absent) (front : Blanks before) (back : Blanks after) :
    Holds (before ++ opcode.mnemonic.toList ++ after) (some ⟨opcode, .absent⟩)
  | operand {opcode : Opcode} {argument : Argument} {before gap operand after : List Char}
    (known : opcode ∈ Opcode.all) (fits : Fits opcode operand argument) (front : Blanks before)
    (between : Blanks gap) (apart : gap ≠ []) (back : Blanks after) :
    Holds (before ++ (opcode.mnemonic.toList ++ gap ++ operand) ++ after) (some ⟨opcode, argument⟩)

section Line

variable {opcode : Opcode} {argument : Argument} {operand line : List Char}
  {found : Option Instruction}

theorem Fits.ne_nil (fits : Fits opcode operand argument) : operand ≠ [] := by
  cases fits with
  | integer takes numeral =>
    rintro rfl
    cases numeral.integer?
  | numeral takes numeral => exact Numeral.ne_nil_of_real? numeral.real?

theorem Fits.solid (fits : Fits opcode operand argument) : Solid operand := by
  cases fits with
  | integer takes numeral => exact numeral.solid
  | numeral takes numeral => exact numeral.solid

theorem Fits.readArgument (fits : Fits opcode operand argument) :
    ObjectText.readArgument opcode operand = .ok argument := by
  have present := fits.ne_nil
  cases fits with
  | integer takes numeral => exact readArgument_integer takes present numeral.integer?
  | numeral takes numeral => exact readArgument_numeral takes present numeral.real?

theorem readArgument_cases (trimmed : trim operand = operand)
    (read : readArgument opcode operand = .ok argument) :
    opcode.operand = .absent ∧ operand = [] ∧ argument = .absent ∨ Fits opcode operand argument := by
  cases takes : opcode.operand with
  | absent =>
    cases operand with
    | nil =>
      rw [readArgument_absent takes] at read
      exact .inl ⟨rfl, rfl, (Except.ok.inj read).symm⟩
    | cons c rest => simp [readArgument, takes] at read
  | integer =>
    cases operand with
    | nil => simp [readArgument, takes] at read
    | cons c rest =>
      simp only [readArgument, takes] at read
      split at read
      next value parsed =>
        cases read
        exact .inr (.integer takes (Numeral.isInteger_of_integer? trimmed parsed))
      next => cases read
  | numeral =>
    cases operand with
    | nil => simp [readArgument, takes] at read
    | cons c rest =>
      simp only [readArgument, takes] at read
      split at read
      next accepted =>
        cases read
        exact .inr (.numeral takes (Numeral.isReal_of_real? trimmed accepted))
      next => cases read

theorem readLine_margins {before after : List Char} (front : Blanks before) (back : Blanks after)
    (trimmed : trim line = line) : readLine (before ++ line ++ after) = readLine line := by
  rw [readLine, readLine, trim_margins front back trimmed, trimmed]

theorem trim_append {word : List Char} (solid : Solid word) (present : word ≠ []) (gap : List Char)
    (trimmed : trim operand = operand) (some : operand ≠ []) :
    trim (word ++ gap ++ operand) = word ++ gap ++ operand := by
  apply trim_eq_self
  · obtain ⟨c, rest, rfl⟩ := List.exists_cons_of_ne_nil present
    rintro first ⟨⟩
    exact solid c List.mem_cons_self
  · intro last found
    have ends := @isBlank_getLast_trim operand
    rw [trimmed] at ends
    rw [List.getLast?_append_of_ne_nil _ some] at found
    exact ends last found

theorem Holds.readLine (holds : Holds line found) : ObjectText.readLine line = .ok found := by
  cases holds with
  | nothing blanks =>
    have nothing := @trim_margins line [] [] blanks nofun rfl
    rw [List.append_nil, List.append_nil] at nothing
    rw [ObjectText.readLine, nothing]
    rfl
  | mnemonic known takes front back =>
    rw [readLine_margins front back (solid_mnemonic known).trim_eq_self, readLine_mnemonic known,
      readArgument_absent takes]
    rfl
  | @operand opcode argument before gap operand after known fits front between apart back =>
    have solid := solid_mnemonic known
    have trimmed := fits.solid.trim_eq_self
    have whole := trim_append solid (Opcode.isInk_mnemonic known).1 gap trimmed fits.ne_nil
    have first := @isBlank_head_trim operand
    rw [trimmed] at first
    rw [readLine_margins front back whole,
      readLine_of_split known whole (splitWord_gap solid between apart first), fits.readArgument]
    rfl

theorem holds_of_readLine (read : readLine line = .ok found) : Holds line found := by
  obtain ⟨before, after, front, back, margins⟩ := exists_margins line
  obtain ⟨gap, between, split, apart⟩ := exists_gap (trim line)
  have trimmed := @trim_splitWord line
  unfold readLine at read
  split at read
  next operand words =>
    cases read
    have nothing : trim line = [] := by
      cases core : trim line with
      | nil => rfl
      | cons c rest =>
        have solid := @isBlank_head_trim line c (by rw [core]; rfl)
        rw [core] at words
        simp [splitWord, solid] at words
    rw [nothing, List.append_nil] at margins
    rw [margins]
    exact .nothing (List.forall_mem_append.mpr ⟨front, back⟩)
  next mnemonic operand _ words =>
    rw [words] at split apart trimmed
    split at read
    next => cases read
    next opcode named =>
      have known : opcode ∈ Opcode.all := List.mem_of_find?_eq_some named
      have spelled : mnemonic = opcode.mnemonic.toList := by
        have same := List.find?_some named
        rw [eq_of_beq same, String.toList_ofList]
      subst spelled
      cases parsed : readArgument opcode operand with
      | error fault => simp [parsed, Except.map] at read
      | ok argument =>
        rw [parsed] at read
        cases read
        rcases readArgument_cases trimmed parsed with ⟨takes, rfl, rfl⟩ | fits
        · rw [margins, split, List.append_nil, List.append_assoc, List.append_assoc,
            ← List.append_assoc before]
          exact .mnemonic known takes front (List.forall_mem_append.mpr ⟨between, back⟩)
        · rw [margins, split]
          exact .operand known fits front between (apart fits.ne_nil) back

theorem readLine_eq_ok_iff : readLine line = .ok found ↔ Holds line found :=
  ⟨holds_of_readLine, Holds.readLine⟩

end Line

theorem forall_holds {lines : List (List Char)} {found : List (Option Instruction)}
    (holds : List.Forall₂ Holds lines found) : ∀ line ∈ lines, ∃ found, Holds line found := by
  induction holds with
  | nil => nofun
  | cons here _ ih => exact List.forall_mem_cons.mpr ⟨⟨_, here⟩, ih⟩

def LinesRead (number : Nat) (lines : List (List Char)) : Except ObjectError (List Instruction) → Prop
  | .ok instructions =>
    ∃ found, List.Forall₂ Holds lines found ∧ instructions = found.filterMap id
  | .error error =>
    ∃ before line after, lines = before ++ line :: after ∧
      (∀ earlier ∈ before, ∃ found, Holds earlier found) ∧ (∀ found, ¬ Holds line found) ∧
      error.line = number + before.length

theorem linesRead_readLines (number : Nat) (lines : List (List Char)) :
    LinesRead number lines (readLines number lines) := by
  induction lines generalizing number with
  | nil => exact ⟨[], .nil, rfl⟩
  | cons line rest ih =>
    rw [readLines]
    cases here : readLine line with
    | error fault =>
      refine ⟨[], line, rest, rfl, List.forall_mem_nil _, ?_, rfl⟩
      intro found holds
      rw [holds.readLine] at here
      cases here
    | ok found =>
      have holds := readLine_eq_ok_iff.mp here
      have behind := ih (number + 1)
      cases others : readLines (number + 1) rest with
      | ok instructions =>
        rw [others] at behind
        obtain ⟨later, allHold, rfl⟩ := behind
        refine ⟨found :: later, .cons holds allHold, ?_⟩
        cases found <;> rfl
      | error error =>
        rw [others] at behind
        obtain ⟨before, bad, after, rfl, earlier, notHeld, number_⟩ := behind
        refine ⟨line :: before, bad, after, rfl, ?_, notHeld, ?_⟩
        · exact List.forall_mem_cons.mpr ⟨⟨found, holds⟩, earlier⟩
        · rw [number_, List.length_cons]
          omega

def operandsOf (opcodes : List Opcode) (instructions : List Instruction) : List Int :=
  (instructions.filter (·.opcode ∈ opcodes)).filterMap (·.argument.integer?)

/-- The memory that instructions need: the cells that are set aside, or those up to the highest address,
if there is an address. -/
def Needs (instructions : List Instruction) (memory : Int) : Prop :=
  let addresses := operandsOf [.load, .store, .pass] instructions
  ∃ top, memory = max ((operandsOf [.reserve] instructions).foldr (· + ·) 0) top ∧
    (addresses = [] ∧ top = 0 ∨
      ∃ highest ∈ addresses, (∀ address ∈ addresses, address ≤ highest) ∧ top = highest + 1)

theorem reservations_load (instructions : List Instruction) :
    (load instructions).reservations.filterMap Argument.integer? =
      operandsOf [.reserve] instructions := by
  simp [load, Buffer.reservations, Buffer.ofInstructions, operandsOf, List.filterMap_map]

theorem addresses_load (instructions : List Instruction) :
    (load instructions).addresses.filterMap Argument.integer? =
      operandsOf [.load, .store, .pass] instructions := by
  have same (opcode : Opcode) : opcode.hasAddress = decide (opcode ∈ [.load, .store, .pass]) := by
    cases opcode <;> simp [Opcode.hasAddress]
  simp only [load, Buffer.addresses, Buffer.ofInstructions, operandsOf, List.filterMap_map, same,
    Function.comp_def]

theorem needs_load (instructions : List Instruction) :
    Needs instructions (load instructions).nextAddress := by
  have required : (load instructions).nextAddress =
    max (load instructions).reservedCells (load instructions).addressedCells := rfl
  rw [Buffer.reservedCells, reservations_load] at required
  refine ⟨_, required, ?_⟩
  rw [Buffer.addressedCells, addresses_load]
  cases maximal : (operandsOf [.load, .store, .pass] instructions).max? with
  | none => exact .inl ⟨List.max?_eq_none_iff.mp maximal, rfl⟩
  | some highest =>
    refine .inr ⟨highest, List.max?_mem maximal, ?_, rfl⟩
    exact (List.max?_le_iff maximal).mp (Int.le_refl highest)

/-- Object text is read exactly when it is of the format. A text is cut into lines in one way, and it
is read if and only if each of them is blank or holds an instruction. What is read are these
instructions in their order, with the memory that they need; what is refused is the first line of
another form, by its number. -/
theorem reads_exactly_the_format (text : String) :
    ∃ lines, Cut text.toList lines ∧ (∀ other, Cut text.toList other → other = lines) ∧
      ((∃ code, read text = .ok code) ↔ ∀ line ∈ lines, ∃ found, Holds line found) ∧
      (∀ code, read text = .ok code →
        ∃ found, List.Forall₂ Holds lines found ∧
          (∀ other, List.Forall₂ Holds lines other → other = found) ∧
          code.instructions.toList = found.filterMap id ∧
          Needs code.instructions.toList code.nextAddress) ∧
      ∀ error, read text = .error error →
        ∃ before line after, lines = before ++ line :: after ∧
          (∀ earlier ∈ before, ∃ found, Holds earlier found) ∧ (∀ found, ¬ Holds line found) ∧
          error.line = before.length + 1 := by
  have functional : Relator.RightUnique Holds := by
    intro line first second firstHolds secondHolds
    exact Except.ok.inj (firstHolds.readLine.symm.trans secondHolds.readLine)
  have spec := linesRead_readLines 1 (objectLines text.toList)
  refine ⟨objectLines text.toList, cut_objectLines _, fun _ => Cut.eq_objectLines, ?_⟩
  unfold read
  cases result : readLines 1 (objectLines text.toList) with
  | ok instructions =>
    rw [result] at spec
    obtain ⟨found, holds, rfl⟩ := spec
    refine ⟨?_, ?_, nofun⟩
    · exact iff_of_true ⟨_, rfl⟩ (forall_holds holds)
    · rintro _ ⟨⟩
      refine ⟨found, holds, ?_, rfl, needs_load _⟩
      intro other otherHolds
      exact functional.forall₂ otherHolds holds
  | error error =>
    rw [result] at spec
    obtain ⟨before, line, after, split, earlier, notHeld, number⟩ := spec
    refine ⟨?_, nofun, ?_⟩
    · refine iff_of_false ?_ ?_
      · rintro ⟨code, ⟨⟩⟩
      · intro allHold
        obtain ⟨found, holds⟩ := allHold line (by rw [split]; simp)
        exact notHeld found holds
    · rintro _ ⟨⟩
      exact ⟨before, line, after, split, earlier, notHeld, by omega⟩

end ObjectText

end Pascalet
