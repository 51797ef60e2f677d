import Pascalet.Proofs.Execution.Program
import Pascalet.Proofs.Recognition.Sentence

namespace Pascalet

namespace Machine

theorem create_eq_ok_iff {code : Buffer} {memorySize : Int} {input : Input} {machine : Machine} :
    create code memorySize input = .ok machine ↔
      0 ≤ memorySize ∧ code.nextAddress ≤ memorySize ∧
        machine = { code, memory := Memory.blank memorySize.toNat, input } := by
  unfold create setupError?
  by_cases negative : memorySize < 0
  · simp [negative, Int.not_le.mpr negative]
  · by_cases short : memorySize < code.nextAddress
    · cases Numeral.isWritable code.nextAddress <;>
        simp [negative, short, Int.not_le.mpr short]
    · simp only [negative, short, ↓reduceIte, Except.ok.injEq]
      constructor
      · rintro rfl
        exact ⟨Int.not_lt.mp negative, Int.not_lt.mp short, rfl⟩
      · rintro ⟨_, _, rfl⟩
        rfl

theorem shows_of_create {code : Buffer} {memorySize : Int} {input : String} {machine : Machine}
    (created : create code memorySize (.ofText input) = .ok machine) :
    Shows code memorySize.toNat ⟨0, [], [], .initial input⟩ { machine with status := .running } := by
  obtain ⟨_, _, rfl⟩ := create_eq_ok_iff.mp created
  refine ⟨rfl, rfl, rfl, ?_⟩
  have blank : (Memory.blank memorySize.toNat).get = fun _ => Binary64.zero :=
    funext (Memory.get_blank memorySize.toNat)
  have words : (Input.ofText input).remaining = Text.words input.toList :=
    Text.flatMap_words_inputLines input.toList
  rw [config, observe, blank, words]
  rfl

end Machine

/-- The code of a compiled program is that of the core program of its tree. -/
theorem Program.executable_of_compile {source : String} {program : Program} {tree : Tree.Program}
    (compiled : compile source = .ok program) (spells : tree.Spells (tokenize source).tokens) :
    ∃ core context, tree.resolve = .ok (core, context) ∧
      program.code.nextAddress = context.cells ∧
      ∀ memorySize : Nat, context.cells ≤ memorySize →
        Machine.Executable core context.cells program.code memorySize := by
  obtain ⟨core, context, resolved, rfl⟩ := exists_core_of_compile compiled spells
  obtain ⟨last, tokens⟩ := spells
  have plain : ∀ token ∈ tree.tokens, token.IsPlain := fun token found =>
    Cursor.isPlain_of_mem_tokens _ token (tokens ▸ List.mem_append_left _ found)
  have valid : core.Valid context.cells := tree.gives_valid plain _ resolved
  refine ⟨core, context, resolved, rfl, fun memorySize enough => ⟨rfl, ?_, valid⟩⟩
  intro instruction found
  exact (Core.Program.allSound_code valid instruction (List.mem_toArray.mp found)).mono enough

/-- A compiled program does on every machine with memory enough, and on every input, what the core
program of its tree does: both end normally or both fail in the same read, with the same lines printed
and the same values in all cells. -/
theorem Program.compile_preserves_execution {source : String} {program : Program}
    (compiled : compile source = .ok program) :
    (∃ tree : Tree.Program, tree.Spells (tokenize source).tokens) ∧
    ∀ tree : Tree.Program, tree.Spells (tokenize source).tokens →
      ∃ core context, tree.resolve = .ok (core, context) ∧
        ∀ (memorySize : Int) (input : String), program.code.nextAddress ≤ memorySize →
          ∃ machine, Machine.create program.code memorySize (.ofText input) = .ok machine ∧
            ∀ outcome, core.Exec input outcome ↔ machine.Ends outcome := by
  refine ⟨(exists_spells_of_compile compiled).2, fun tree spells => ?_⟩
  obtain ⟨core, context, resolved, cells, executable⟩ := executable_of_compile compiled spells
  refine ⟨core, context, resolved, fun memorySize input enough => ?_⟩
  have created : Machine.create program.code memorySize (.ofText input) = .ok
      { code := program.code, memory := Memory.blank memorySize.toNat, input := .ofText input } :=
    Machine.create_eq_ok_iff.mpr ⟨by omega, enough, rfl⟩
  refine ⟨_, created, fun outcome => ?_⟩
  exact (executable memorySize.toNat (by omega)).exec_iff_ends (Machine.shows_of_create created)

theorem Program.compile_preserves_execution_sum :
    ∃ (program : Program) (tree : Tree.Program) (core : Core.Program) (context : Context)
      (machine : Machine),
      compile "program p; var x, y: real; begin read(x, y); write(x + y) end." = .ok program ∧
      tree.Spells
        (tokenize "program p; var x, y: real; begin read(x, y); write(x + y) end.").tokens ∧
      tree.resolve = .ok (core, context) ∧
      Machine.create program.code 10 (.ofText "1 2.5") = .ok machine ∧
      ∀ outcome, core.Exec "1 2.5" outcome ↔ machine.Ends outcome := by
  have checked : (compile
      "program p; var x, y: real; begin read(x, y); write(x + y) end.").toOption.any
        (fun program => program.code.nextAddress ≤ 10) = true := by
    decide +kernel
  obtain ⟨program, compiled, small⟩ := exists_of_any checked
  obtain ⟨⟨tree, spells⟩, agrees⟩ := compile_preserves_execution compiled
  obtain ⟨core, context, resolved, runs⟩ := agrees tree spells
  obtain ⟨machine, created, same⟩ := runs 10 "1 2.5" (of_decide_eq_true small)
  exact ⟨program, tree, core, context, machine, compiled, spells, resolved, created, same⟩

end Pascalet
