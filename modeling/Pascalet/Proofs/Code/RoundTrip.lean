import Pascalet.Proofs.Execution.Safety
import Pascalet.Proofs.Files.Disk
import Pascalet.Session

namespace Pascalet

def Buffer.Writable (buffer : Buffer) : Prop :=
  ∀ instruction ∈ buffer.instructions, instruction.Writable

def Buffer.ReadsBack (buffer : Buffer) : Prop :=
  ∃ reloaded, ObjectText.read (ObjectText.write buffer) = .ok reloaded ∧
    reloaded.instructions = buffer.instructions ∧
    ∀ (program : Program) (disk saved : Disk) (path : String), program.code = buffer →
      Session.save disk program path = .ok saved →
      Session.load saved path = .ok { name := Path.stem path, code := reloaded }

theorem Buffer.Writable.read_write {buffer : Buffer} (writable : buffer.Writable) :
    ObjectText.read (ObjectText.write buffer) =
      .ok (ObjectText.load buffer.instructions.toList) :=
  ObjectText.read_write fun instruction found => writable instruction (Array.mem_toList_iff.mp found)

/-- Object text has line feeds only, so no newline changes on the way through a file. -/
theorem Buffer.Writable.unifyNewlines_write {buffer : Buffer} (writable : buffer.Writable) :
    String.ofList (Text.unifyNewlines (ObjectText.write buffer).toList) =
      ObjectText.write buffer := by
  have noReturn : ∀ c ∈ (ObjectText.write buffer).toList, c ≠ '\r' := by
    rw [ObjectText.toList_write]
    apply ObjectText.ne_carriageReturn
    intro instruction found
    exact writable instruction (Array.mem_toList_iff.mp found)
  rw [Text.unifyNewlines_eq_self noReturn, String.ofList_toList]

theorem Buffer.Writable.readsBack {buffer : Buffer} (writable : buffer.Writable) :
    buffer.ReadsBack := by
  refine ⟨_, writable.read_write, ?_, ?_⟩
  · simp [ObjectText.load, ofInstructions]
  · rintro program disk saved path rfl done
    unfold Session.save at done
    cases written : disk.writeText (Path.normal path) (ObjectText.write program.code) with
    | error error =>
      rw [written] at done
      cases done
    | ok after =>
      rw [written] at done
      cases done
      have text := Disk.readText_of_writeText written
      rw [writable.unifyNewlines_write] at text
      rw [Session.load, text]
      show ((ObjectText.read (ObjectText.write program.code)).mapError _ >>= _) = _
      rw [writable.read_write]
      rfl

theorem Buffer.short_of_all {buffer : Buffer}
    (short : (buffer.instructions.all fun instruction =>
      instruction.argument.integer?.all Numeral.isWritable) = true) :
    ∀ instruction ∈ buffer.instructions, ∀ value,
      instruction.argument = .integer value → Numeral.isWritable value = true := by
  intro instruction found value same
  have written := Array.all_eq_true_iff_forall_mem.mp short instruction found
  rwa [same, Argument.integer?, Option.all_some] at written

theorem Program.writable_of_compile {source : String} {program : Program}
    (compiled : compile source = .ok program)
    (short : ∀ instruction ∈ program.code.instructions, ∀ value,
      instruction.argument = .integer value → Numeral.isWritable value = true) :
    program.code.Writable := by
  obtain ⟨tree, spells⟩ := (exists_spells_of_compile compiled).2
  obtain ⟨core, context, _, _, executable⟩ := executable_of_compile compiled spells
  intro instruction found
  have sound := (executable context.cells (Nat.le_refl _)).sound instruction found
  exact sound.writable (short instruction found)

theorem ObjectText.read_write_of_read {text : String} {buffer : Buffer}
    (done : read text = .ok buffer) :
    buffer.Writable ∧ read (write buffer) = .ok buffer := by
  obtain ⟨loaded, each⟩ := writable_of_read done
  have writable : buffer.Writable :=
    fun instruction found => each instruction (Array.mem_toList_iff.mpr found)
  refine ⟨writable, ?_⟩
  rw [writable.read_write, ← loaded]

/-- A buffer that can be written is read back from object text and from object files, and every buffer
that was compiled or read can be written. -/
theorem ObjectText.roundTrip (buffer : Buffer) :
    (buffer.Writable → buffer.ReadsBack) ∧
    (∀ (source : String) (program : Program), Program.compile source = .ok program →
      program.code = buffer →
      (∀ instruction ∈ buffer.instructions, ∀ value,
        instruction.argument = .integer value → Numeral.isWritable value = true) →
      buffer.Writable) ∧
    ∀ text : String, read text = .ok buffer → buffer.Writable ∧ read (write buffer) = .ok buffer := by
  refine ⟨Buffer.Writable.readsBack, ?_, fun text => read_write_of_read⟩
  rintro source program compiled rfl short
  exact Program.writable_of_compile compiled short

theorem ObjectText.roundTrip_foreign_digits :
    (Buffer.ofInstructions [⟨.store, .integer (-7)⟩, ⟨.constant, .text "+1_0.٥e-٢"⟩]).ReadsBack ∧
    (∃ program, Program.compile "program p; var x: real; begin x := 10.50 end." = .ok program ∧
      program.code.Writable) ∧
    ∃ buffer, read "  ARMZ -٠_٧\r\n\u2028 CRCT\t+1_0.٥e-٢ \x0c" = .ok buffer ∧
      buffer.instructions = #[⟨.store, .integer (-7)⟩, ⟨.constant, .text "+1_0.٥e-٢"⟩] ∧
      read (write buffer) = .ok buffer := by
  refine ⟨?_, ?_, ?_⟩
  · apply (roundTrip _).1
    intro instruction found
    simp only [Buffer.ofInstructions, List.mem_toArray, List.mem_cons, List.not_mem_nil,
      or_false] at found
    rcases found with rfl | rfl
    · exact .integer rfl (by decide) (by decide +kernel)
    · exact .numeral rfl (by decide) (by decide +kernel) (by decide +kernel)
  · have checked : (Program.compile "program p; var x: real; begin x := 10.50 end.").toOption.any
        (fun program => program.code.instructions.all fun instruction =>
          instruction.argument.integer?.all Numeral.isWritable) = true := by
      decide +kernel
    obtain ⟨program, compiled, short⟩ := Program.exists_of_any checked
    exact ⟨program, compiled, (roundTrip _).2.1 _ program compiled rfl (Buffer.short_of_all short)⟩
  · have checked : (read "  ARMZ -٠_٧\r\n\u2028 CRCT\t+1_0.٥e-٢ \x0c").toOption.any
        (fun buffer => decide (buffer.instructions =
          #[⟨.store, .integer (-7)⟩, ⟨.constant, .text "+1_0.٥e-٢"⟩])) = true := by
      decide +kernel
    obtain ⟨buffer, done, instructions⟩ := Program.exists_of_any checked
    exact ⟨buffer, done, of_decide_eq_true instructions, ((roundTrip buffer).2.2 _ done).2⟩

end Pascalet
