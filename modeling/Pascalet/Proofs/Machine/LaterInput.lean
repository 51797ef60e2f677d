import Pascalet.Proofs.Execution.Correctness
import Pascalet.Proofs.Machine.Surroundings

namespace Pascalet

namespace Text

/-- Text behind a line feed adds to the lines, even where it ends an empty line. -/
theorem inputLines_append (first later : List Char) :
    ∃ more, inputLines (first ++ '\n' :: later) = inputLines first ++ more := by
  obtain ⟨length, bound⟩ : ∃ length, first.length ≤ length := ⟨_, Nat.le_refl _⟩
  induction length generalizing first with
  | zero =>
    rw [List.length_eq_zero_iff.mp (Nat.le_zero.mp bound)]
    exact ⟨_, rfl⟩
  | succ length ih =>
    have lineFeed : ('\n' == '\n') = true := rfl
    obtain ⟨line, clear, rfl | ⟨e, rest, found, rfl⟩⟩ := exists_line (· == '\n') first
    · cases first with
      | nil => exact ⟨_, rfl⟩
      | cons c line =>
        refine ⟨inputLines later, ?_⟩
        rw [inputLines, inputLines, segments_append_cons clear lineFeed,
          segments_eq_singleton clear (List.cons_ne_nil c line)]
        rfl
    · rw [List.length_append, List.length_cons] at bound
      obtain ⟨more, lines⟩ := ih rest (by omega)
      refine ⟨more, ?_⟩
      rw [inputLines] at lines
      rw [List.append_assoc, List.cons_append, inputLines, inputLines, segments_append_cons clear found,
        segments_append_cons clear found, lines]
      rfl

end Text

namespace Input

def followedBy (more : List (List Char)) (input : Input) : Input :=
  { input with lines := input.lines ++ more }

theorem exists_followedBy (first later : String) :
    ∃ more, ofText (first ++ "\n" ++ later) = (ofText first).followedBy more := by
  obtain ⟨more, lines⟩ := Text.inputLines_append first.toList later.toList
  refine ⟨more, ?_⟩
  have characters : (first ++ "\n" ++ later).toList = first.toList ++ '\n' :: later.toList := by
    simp
  rw [ofText, characters, lines]
  rfl

theorem take_followedBy {input after : Input} {word : List Char}
    (taken : input.take = (some word, after)) (more : List (List Char)) :
    (input.followedBy more).take = (some word, after.followedBy more) := by
  obtain ⟨words, lines⟩ := input
  simp only [take, followedBy] at taken ⊢
  induction lines generalizing words with
  | nil =>
    cases words with
    | nil => simp [takeFrom] at taken
    | cons first rest =>
      simp only [takeFrom, Prod.mk.injEq, Option.some.injEq] at taken
      obtain ⟨rfl, rfl⟩ := taken
      simp [takeFrom]
  | cons line rest ih =>
    cases words with
    | nil => exact ih (Text.words line) taken
    | cons first others =>
      simp only [takeFrom, Prod.mk.injEq, Option.some.injEq] at taken
      obtain ⟨rfl, rfl⟩ := taken
      rfl

theorem eq_empty_of_take {input after : Input} (taken : input.take = (none, after)) : after = {} := by
  obtain ⟨words, lines⟩ := input
  simp only [take] at taken
  induction lines generalizing words with
  | nil =>
    cases words with
    | nil =>
      simp only [takeFrom, Prod.mk.injEq, true_and] at taken
      exact taken.symm
    | cons first rest => simp [takeFrom] at taken
  | cons line rest ih =>
    cases words with
    | nil => exact ih (Text.words line) taken
    | cons first others => simp [takeFrom] at taken

end Input

namespace Machine

def continued (more : List (List Char)) (machine : Machine) : Machine :=
  machine.redirect (Input.followedBy more) #[]

theorem continued_eq (more : List (List Char)) (machine : Machine) :
    machine.continued more = { machine with input := machine.input.followedBy more } := by
  simp [continued, redirect]

/-- A step that asks for input where there is none left. -/
def AsksInVain (machine : Machine) (error : MachineError) (after : Machine) : Prop :=
  error = .execution .noInputLeft machine.pc ∧
    after = { machine with steps := machine.steps + 1, input := {} }

/-- A step does the same with more input, unless it asks in vain. -/
theorem step_continued (more : List (List Char)) (machine : Machine) :
    ((machine.continued more).step = onMachine (continued more) machine.step ∧
      ∀ {after fault pc}, machine.step = .error (.execution fault pc) after → fault ≠ .noInputLeft) ∨
      ∃ error after, machine.step = .error error after ∧ machine.AsksInVain error after := by
  rcases machine.step_cases with ⟨argument, fetched⟩ | ⟨detached, neverLacks⟩
  · have same : (machine.continued more).code.instructions[(machine.continued more).pc]? =
        some ⟨.read, argument⟩ := fetched
    have stepped := step_of_read fetched
    have continuedStep := step_of_read same
    have input : (machine.continued more).input = machine.input.followedBy more := rfl
    cases taken : machine.input.take with
    | mk found after =>
      cases found with
      | none =>
        right
        rw [taken] at stepped
        exact ⟨_, _, stepped, rfl, by rw [Input.eq_empty_of_take taken]⟩
      | some word =>
        left
        rw [input, Input.take_followedBy taken more] at continuedStep
        rw [taken] at stepped
        rw [continuedStep, stepped]
        simp only [numberOf]
        cases Numeral.real? word with
        | some value =>
          refine ⟨rfl, ?_⟩
          rintro _ _ _ ⟨⟩
        | none =>
          refine ⟨rfl, ?_⟩
          rintro _ _ _ ⟨⟩ ⟨⟩
  · exact .inl ⟨detached _ _, neverLacks⟩

/-- The run asks in vain behind so many steps, where it has come to this machine. -/
structure LacksInput (start : Machine) (completed : Nat) (before last : Machine)
    (error : Option MachineError) : Prop where
  reached : Steps completed start before
  stops : resume 1 before = .stopped last error
  error : error = some (.execution .noInputLeft before.pc)
  last : last = { before with steps := before.steps + 1, input := {}, status := .failed }

theorem resume_continued (more : List (List Char)) {limit : Nat} {machine last : Machine}
    {error : Option MachineError} (stopped : resume limit machine = .stopped last error) :
    (resume limit (machine.continued more) = .stopped (last.continued more) error ∧
      ∀ pc, error ≠ some (.execution .noInputLeft pc)) ∨
      ∃ completed before, machine.LacksInput completed before last error ∧
        Steps completed (machine.continued more) (before.continued more) := by
  induction limit generalizing machine with
  | zero => cases stopped
  | succ limit ih =>
    have status : (machine.continued more).status = machine.status := rfl
    rw [resume] at stopped ⊢
    rw [status]
    by_cases running : machine.status = .running
    · rw [if_pos running] at stopped ⊢
      rcases machine.step_continued more with ⟨same, neverLacks⟩ | ⟨error, after, stepped, rfl, rfl⟩
      · rw [same]
        cases stepped : machine.step with
        | error failure after =>
          left
          rw [stepped] at stopped
          cases stopped
          constructor
          · exact congrArg (Progress.stopped · (some failure)) (markFailed_redirect after _ _ failure)
          · rintro pc ⟨⟩
            exact neverLacks stepped rfl
        | ok value after =>
          rw [stepped] at same stopped
          rcases ih stopped with agree | ⟨completed, before, lacks, reached⟩
          · exact .inl agree
          · refine .inr ⟨completed + 1, before, ?_, .more running same reached⟩
            exact { lacks with reached := .more running stepped lacks.reached }
      · right
        rw [stepped] at stopped
        cases stopped
        refine ⟨0, machine, ⟨.none machine, ?_, rfl, rfl⟩, .none _⟩
        rw [resume, if_pos running, stepped]
    · left
      rw [if_neg running] at stopped ⊢
      cases stopped
      refine ⟨rfl, ?_⟩
      rintro _ ⟨⟩

/-- Later input never changes earlier behaviour. A run that halts, or fails for another reason than that
there is no input left, ends the same with more text behind a line feed; and where it fails for that
reason, the run with more text has got as far, and goes on from there. -/
theorem later_input_changes_nothing {code : Buffer} {memorySize : Int} {first : String}
    {machine : Machine} (created : create code memorySize (.ofText first) = .ok machine)
    (later : String) :
    ∃ other, create code memorySize (.ofText (first ++ "\n" ++ later)) = .ok other ∧
      ∀ limit last error, machine.run limit = .stopped last error →
        ((∀ pc, error ≠ some (.execution .noInputLeft pc)) →
          ∃ input, other.run limit = .stopped { last with input } error) ∧
        ∀ pc, error = some (.execution .noInputLeft pc) →
          ∃ completed before input,
            machine.run completed = .unfinished before ∧
            machine.run (completed + 1) = .stopped last error ∧
            other.run completed = .unfinished { before with input } ∧
            before.pc = last.pc ∧ before.memory = last.memory ∧ before.stack = last.stack ∧
            before.returns = last.returns ∧ before.output = last.output ∧
            ∀ longer, completed ≤ longer →
              last.output.toList <+: (other.run longer).reached.output.toList := by
  obtain ⟨more, follows⟩ := Input.exists_followedBy first later
  obtain ⟨natural, enough, rfl⟩ := create_eq_ok_iff.mp created
  refine ⟨_, create_eq_ok_iff.mpr ⟨natural, enough, rfl⟩, ?_⟩
  intro limit last error stopped
  have agree := resume_continued more stopped
  rw [continued_eq, follows.symm] at agree
  rcases agree with ⟨same, notLacking⟩ | ⟨completed, before, lacks, goesOn⟩
  · rw [continued_eq] at same
    exact ⟨fun _ => ⟨_, same⟩, fun pc lacking => absurd lacking (notLacking pc)⟩
  · refine ⟨fun notLacking => absurd lacks.error (notLacking before.pc), fun _ _ => ?_⟩
    obtain ⟨reached, stops, rfl, rfl⟩ := lacks
    rw [continued_eq] at goesOn
    refine ⟨completed, before, _, reached.resume_add 0, (reached.resume_add 1).trans stops,
      goesOn.resume_add 0, rfl, rfl, rfl, rfl, rfl, ?_⟩
    intro longer enough
    obtain ⟨additional, rfl⟩ := Nat.exists_eq_add_of_le enough
    rw [run, goesOn.resume_add additional]
    exact output_prefix_resume additional { before with input := before.input.followedBy more }

/-- A program that prints a cell and then reads, with no input and with one line of it. -/
theorem later_input_changes_nothing_of_read :
    let code := Buffer.ofInstructions
      [⟨.load, .integer 0⟩, ⟨.write, .absent⟩, ⟨.read, .absent⟩, ⟨.write, .absent⟩]
    ∃ machine last, create code 1 (.ofText "") = .ok machine ∧
      machine.run 9 = .stopped last (some (.execution .noInputLeft 2)) ∧
      ∃ other completed before input, create code 1 (.ofText "\n7") = .ok other ∧
        machine.run completed = .unfinished before ∧
        other.run completed = .unfinished { before with input } ∧ before.output = last.output := by
  intro code
  have created : create code 1 (.ofText "") =
      .ok { code, memory := Memory.blank 1, input := .ofText "" } :=
    create_eq_ok_iff.mpr ⟨by decide, by decide, rfl⟩
  obtain ⟨other, otherCreated, same⟩ := later_input_changes_nothing created "7"
  obtain ⟨_, lacking⟩ := same 9 _ _ rfl
  obtain ⟨completed, before, input, reached, _, otherReached, _, _, _, _, output, _⟩ :=
    lacking 2 rfl
  exact ⟨_, _, created, rfl, other, completed, before, input, otherCreated, reached, otherReached,
    output⟩

end Machine

end Pascalet
