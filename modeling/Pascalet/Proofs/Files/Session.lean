import Pascalet.Session

namespace Pascalet.Session

variable (platform : Platform) (disk : Disk) (path : String)

theorem compileAt_cases :
    (∃ cause, disk.readText (Path.normal path) = .error cause ∧
      compileAt platform disk path = .error (.file cause)) ∨
    (∃ source, disk.readText (Path.normal path) = .ok source ∧ platform.tooDeep source = true ∧
      compileAt platform disk path = .error .tooDeep) ∨
    (∃ source cause, Program.compile source = .error cause ∧
      compileAt platform disk path = .error (.compile cause (some path))) ∨
    ∃ source program, Program.compile source = .ok program ∧
      compileAt platform disk path = .ok program := by
  have opened : compileAt platform disk path = match disk.readText (Path.normal path) with
      | .error cause => .error (.file cause)
      | .ok source => compileText platform source path := by
    unfold compileAt
    cases disk.readText (Path.normal path) <;> rfl
  rw [opened]
  cases read : disk.readText (Path.normal path) with
  | error cause => exact .inl ⟨cause, rfl, rfl⟩
  | ok source =>
    right
    dsimp only
    rw [compileText]
    split
    next deep => exact .inl ⟨source, rfl, deep, rfl⟩
    next =>
      right
      cases compiled : Program.compile source with
      | error cause => exact .inl ⟨source, cause, compiled, rfl⟩
      | ok program => exact .inr ⟨source, program, compiled, rfl⟩

theorem load_cases :
    (∃ cause, disk.readText (Path.normal path) = .error cause ∧
      load disk path = .error (.file cause)) ∨
    (∃ text cause, ObjectText.read text = .error cause ∧
      load disk path = .error (.object cause (some path))) ∨
    ∃ text code, ObjectText.read text = .ok code ∧
      load disk path = .ok { name := Path.stem path, code } := by
  have opened : load disk path = match disk.readText (Path.normal path) with
      | .error cause => .error (.file cause)
      | .ok text => ((ObjectText.read text).mapError (.object · (some path))).map fun code =>
          { name := Path.stem path, code } := by
    unfold load
    cases disk.readText (Path.normal path) with
    | error cause => rfl
    | ok text => cases ObjectText.read text <;> rfl
  rw [opened]
  cases disk.readText (Path.normal path) with
  | error cause => exact .inl ⟨cause, rfl, rfl⟩
  | ok text =>
    right
    dsimp only
    cases read : ObjectText.read text with
    | error cause => exact .inl ⟨text, cause, read, rfl⟩
    | ok code => exact .inr ⟨text, code, read, rfl⟩

theorem save_cases (program : Program) :
    (∃ cause, disk.writeText (Path.normal path) (ObjectText.write program.code) = .error cause ∧
      save disk program path = .error (.file cause)) ∨
    ∃ written, disk.writeText (Path.normal path) (ObjectText.write program.code) = .ok written ∧
      save disk program path = .ok written := by
  unfold save
  cases disk.writeText (Path.normal path) (ObjectText.write program.code) with
  | error cause => exact .inl ⟨cause, rfl, rfl⟩
  | ok written => exact .inr ⟨written, rfl, rfl⟩

theorem prepare_cases (code : Buffer) (size : Int) (input : Input) :
    (∃ text, platform.refusal? size.toNat = some text ∧
      prepare platform code size input = .error (.capacity text)) ∨
    prepare platform code size input = (Machine.create code size input.dropLine).mapError .setup := by
  unfold prepare
  split
  next text _ refused => exact .inl ⟨text, refused, rfl⟩
  next => exact .inr rfl

end Pascalet.Session
