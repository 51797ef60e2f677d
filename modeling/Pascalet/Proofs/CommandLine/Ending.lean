import Pascalet.Proofs.CommandLine.Preparation
import Pascalet.Proofs.Machine.Operations

namespace Pascalet.CommandLine

def Settings.Overflows (settings : Settings) (platform : Platform) (disk : Disk) (stream : Stream) : Prop :=
  ∃ machine limit, settings.Starts platform disk stream machine ∧ machine.overflows limit = true

/-- Messages that are no errors: notes, and what other code remarks about an overflow. -/
inductive IsAside (settings : Settings) (platform : Platform) (disk : Disk) (stream : Stream) :
    Message → Prop where
  | note {message : Message} (isNote : IsNote settings message) :
    IsAside settings platform disk stream message
  | overflow (overflows : settings.Overflows platform disk stream) :
    IsAside settings platform disk stream (.remark .overflow)

def OnlyAsides (settings : Settings) (platform : Platform) (disk : Disk) (stream : Stream)
    (messages : List Message) : Prop :=
  ∀ message ∈ messages, IsAside settings platform disk stream message

/-- The ways to end, each with what was written for errors. -/
inductive Ending (settings : Settings) (platform : Platform) (disk : Disk) (stream : Stream) :
    Exit → List Message → Prop where
  | success {asides : List Message}
    (noErrors : OnlyAsides settings platform disk stream asides) :
    Ending settings platform disk stream (.code 0) asides
  | reported {asides : List Message} {error : SessionError}
    (noErrors : OnlyAsides settings platform disk stream asides)
    (known : error.isReported = true) :
    Ending settings platform disk stream (.code 1) (asides ++ [.error error])
  | escaped {asides : List Message} {failure : Failure}
    (noErrors : OnlyAsides settings platform disk stream asides)
    (escapes : Escapes settings platform disk stream failure) :
    Ending settings platform disk stream (.crash failure) asides

variable {settings : Settings} {platform : Platform} {disk : Disk} {stream : Stream}

theorem exists_read_of_load {path : String} {program : Program}
    (done : Session.load disk path = .ok program) :
    ∃ text, ObjectText.read text = .ok program.code := by
  rcases Session.load_cases disk path with ⟨_, _, shown⟩ | ⟨_, _, _, shown⟩ | ⟨text, code, read, shown⟩
  · rw [shown] at done
    cases done
  · rw [shown] at done
    cases done
  · rw [shown, Except.ok.injEq] at done
    subst done
    exact ⟨text, read⟩

theorem exists_compile_of_compileAt {path : String} {program : Program}
    (done : Session.compileAt platform disk path = .ok program) :
    ∃ source, Program.compile source = .ok program := by
  rcases Session.compileAt_cases platform disk path with
    ⟨_, _, shown⟩ | ⟨_, _, _, shown⟩ | ⟨_, _, _, shown⟩ | ⟨source, first, compiled, shown⟩
  · rw [shown] at done
    cases done
  · rw [shown] at done
    cases done
  · rw [shown] at done
    cases done
  · rw [shown, Except.ok.injEq] at done
    subst done
    exact ⟨source, compiled⟩

theorem Settings.Finds.hasTextConstants {program : Program} (found : settings.Finds platform disk program) :
    program.code.HasTextConstants := by
  cases found with
  | loaded _ done | reloaded _ _ _ done =>
    obtain ⟨text, read⟩ := exists_read_of_load done
    exact ObjectText.hasTextConstants read
  | compiled _ done =>
    obtain ⟨source, compiled⟩ := exists_compile_of_compileAt done
    exact Program.hasTextConstants compiled

/-- The constants of a program that was found are written as texts, so its run fails by faults only. -/
theorem Settings.Starts.execution_of_run {machine stopped : Machine} {error : MachineError}
    {limit : Nat} (starts : settings.Starts platform disk stream machine)
    (ended : machine.run limit = .stopped stopped (some error)) :
    ∃ fault, error = .execution fault stopped.pc := by
  obtain ⟨program, size, found, asked, created⟩ := starts
  have ready := Machine.InBounds.of_create created
  have kept := ready.apply (.run limit)
  have applied : Machine.Operation.apply machine (.run limit) = (stopped, some error) := by
    simp [Machine.Operation.apply, ended, Machine.Progress.outcome]
  rw [applied] at kept
  obtain ⟨stoppedBounds, raised⟩ := kept
  rcases raised error rfl with execution | ⟨_, _, value, fetched, _⟩
  · exact execution
  · rw [stoppedBounds.sameCode] at fetched
    exact absurd fetched (found.hasTextConstants stopped.pc value)

theorem Escapes.isReported_eq_false {failure : Failure}
    (escapes : Escapes settings platform disk stream failure) : failure.isReported = false := by
  cases escapes <;> rfl

section Asides

variable {console : Console}

theorem Noted.noErrors (noted : Noted settings { disk } console) :
    OnlyAsides settings platform disk stream console.messages := by
  obtain ⟨notes, areNotes, messages⟩ := noted
  have messages : console.messages = notes := messages
  intro message member
  rw [messages] at member
  exact .note (areNotes message member)

theorem OnlyAsides.note (noErrors : OnlyAsides settings platform disk stream console.messages)
    (channel : Channel) (text : String) :
    OnlyAsides settings platform disk stream (console.note settings (.note channel text)).messages := by
  obtain ⟨notes, areNotes, messages⟩ :=
    noted_note console (.note : _ → IsNote settings (.note channel text))
  intro message member
  rw [messages] at member
  rcases List.mem_append.mp member with earlier | added
  · exact noErrors message earlier
  · exact .note (areNotes message added)

theorem ending_of_failure {failure : Failure}
    (noErrors : OnlyAsides settings platform disk stream console.messages)
    (permitted : Permitted settings platform disk stream failure) :
    Ending settings platform disk stream (fail failure console).exit
      (fail failure console).console.messages := by
  rcases permitted with known | escapes
  · cases failure with
    | session error =>
      have known : error.isReported = true := known
      have failed : fail (.session error) console = ⟨.code 1, console.report (.error error)⟩ := by
        simp [fail, known]
      rw [failed]
      exact .reported noErrors known
    | noPath | noMemorySize | undecodableInput | outOfMemory => cases known
  · have failed : fail failure console = ⟨.crash failure, console⟩ := by
      have silent := escapes.isReported_eq_false
      cases failure with
      | session error =>
        have silent : error.isReported = false := silent
        simp [fail, silent]
      | noPath | noMemorySize | undecodableInput | outOfMemory => rfl
    rw [failed]
    exact .escaped noErrors escapes

theorem ending_of_conclude {machine stopped : Machine} {error? : Option MachineError} {limit : Nat}
    (noErrors : OnlyAsides settings platform disk stream console.messages)
    (starts : settings.Starts platform disk stream machine)
    (progress : machine.run limit = .stopped stopped error?) :
    Ending settings platform disk stream (conclude settings stream console stopped error?).exit
      (conclude settings stream console stopped error?).console.messages := by
  have printed : OnlyAsides settings platform disk stream
      { console with output := console.output ++ stopped.outputText }.messages := noErrors
  cases error? with
  | none => exact .success (printed.note _ _)
  | some error =>
    obtain ⟨fault, rfl⟩ := starts.execution_of_run progress
    dsimp only [conclude]
    split
    next spoilt =>
      obtain ⟨rfl, spoilt⟩ := spoilt
      exact ending_of_failure printed (.inr (.undecodableInput starts progress spoilt))
    next => exact ending_of_failure (printed.note _ _) (.inl rfl)

theorem ending_of_execute {machine : Machine} {limit : Nat} {outcome : Outcome}
    (noErrors : OnlyAsides settings platform disk stream console.messages)
    (starts : settings.Starts platform disk stream machine)
    (ended : execute platform limit settings stream console machine = some outcome) :
    Ending settings platform disk stream outcome.exit outcome.console.messages := by
  unfold execute at ended
  dsimp only at ended
  generalize stepsAre : ((platform.exhaustion? machine).filter (· ≤ limit)).getD limit = steps at ended
  generalize remarkedIs : (if machine.overflows steps then console.report (.remark .overflow)
    else console) = remarked at ended
  have remarks : OnlyAsides settings platform disk stream remarked.messages := by
    rw [← remarkedIs]
    split
    next overflows =>
      intro message member
      rcases List.mem_append.mp member with earlier | added
      · exact noErrors message earlier
      · rw [List.mem_singleton.mp added]
        exact .overflow ⟨machine, steps, starts, overflows⟩
    next => exact noErrors
  cases progress : machine.run steps with
  | stopped stopped error? =>
    rw [progress] at ended
    cases ended
    exact ending_of_conclude remarks starts progress
  | unfinished paused =>
    rw [progress] at ended
    obtain ⟨_, exhausted, rfl⟩ := Option.map_eq_some_iff.mp ended
    have exhausted := (Option.filter_eq_some_iff.mp exhausted).1
    exact ending_of_failure remarks (.inr (.outOfMemory starts exhausted))

end Asides

section Messages

variable {exit : Exit} {messages : List Message}

theorem IsAside.ne_error {message : Message} (aside : IsAside settings platform disk stream message)
    (error : SessionError) : message ≠ .error error := by
  rintro rfl
  cases aside with
  | note isNote => cases isNote

theorem Ending.code_one_iff (ending : Ending settings platform disk stream exit messages) :
    exit = .code 1 ↔ ∃ error, .error error ∈ messages := by
  cases ending with
  | success noErrors | escaped noErrors =>
    refine ⟨nofun, ?_⟩
    rintro ⟨error, member⟩
    exact absurd rfl ((noErrors _ member).ne_error error)
  | reported => simp

/-- If there is an error among the messages, it is the last one. -/
theorem Ending.error_last {error : SessionError}
    (ending : Ending settings platform disk stream exit messages) (member : .error error ∈ messages) :
    ∃ front, messages = front ++ [.error error] := by
  cases ending with
  | success noErrors | escaped noErrors => exact absurd rfl ((noErrors _ member).ne_error error)
  | reported noErrors =>
    rcases List.mem_append.mp member with aside | last
    · exact absurd rfl ((noErrors _ aside).ne_error error)
    · rw [List.mem_singleton] at last
      cases last
      exact ⟨_, rfl⟩

theorem Ending.holds_capacity {cells : Nat} {text : String}
    (ending : Ending settings platform disk stream (.crash (.session (.capacity text))) messages)
    (holds : platform.Holds cells) : ∃ size ∈ settings.memorySize, (cells : Int) < size := by
  cases ending with
  | escaped _ escapes =>
    cases escapes with
    | @capacity size _ asked refused =>
      refine ⟨size, asked, ?_⟩
      by_contra within
      rw [holds size.toNat (by omega)] at refused
      cases refused

end Messages

section Invocation

variable {limit : Nat} {arguments : List String}

theorem ending_of_run {outcome : Outcome}
    (accepted : Settings.ofArguments platform.dropsDashes arguments = .ok settings)
    (ended : run platform limit arguments disk stream = some outcome) :
    Ending settings platform disk stream outcome.exit outcome.console.messages := by
  have prepared : Orderly settings (Permitted settings platform disk stream) disk _
      (prepare platform settings stream) := orderly_prepare (Settings.source_or_load accepted)
  have prepared := prepared.ends { disk } rfl
  unfold run start at ended
  rw [accepted] at ended
  dsimp only at ended
  cases result : prepare platform settings stream { disk } with
  | error failure console =>
    rw [result] at prepared ended
    cases ended
    exact ending_of_failure prepared.1.noErrors prepared.2
  | ok machine? console =>
    rw [result] at prepared ended
    obtain ⟨noted, starts⟩ := prepared
    cases machine? with
    | none =>
      cases ended
      exact .success noted.noErrors
    | some machine => exact ending_of_execute noted.noErrors (starts machine rfl) ended

theorem findProgram_of_uncompiled {path : String} {error : SessionError}
    (named : settings.source = some path) (alone : settings.load = none)
    (unlisted : settings.tokens = false) (failed : Session.compileAt platform disk path = .error error) :
    findProgram platform settings { disk } = .error (.session error) { disk } := by
  have stops : compileProgram platform settings path { disk } = .error (.session error) { disk } := by
    show EStateM.bind (obtain (Session.compileAt platform disk path)) _ { disk } = _
    rw [failed]
    rfl
  have silent : ¬ settings.tokens = true := by simp [unlisted]
  rw [findProgram, alone, named]
  show buildProgram platform settings path { disk } = _
  unfold buildProgram
  dsimp only
  rw [if_neg silent]
  show EStateM.bind (compileProgram platform settings path) _ { disk } = _
  simp only [EStateM.bind, stops]

theorem run_of_uncompiled {path : String} {error : SessionError}
    (accepted : Settings.ofArguments platform.dropsDashes arguments = .ok settings) (named : settings.source = some path)
    (unlisted : settings.tokens = false) (failed : Session.compileAt platform disk path = .error error) :
    run platform limit arguments disk stream = some (fail (.session error) { disk }) := by
  have alone : settings.load = none := by
    have given := Settings.source_or_load accepted
    cases load : settings.load with
    | none => rfl
    | some object => simp [named, load] at given
  have prepared : prepare platform settings stream { disk } = .error (.session error) { disk } := by
    have missed := findProgram_of_uncompiled named alone unlisted failed
    simp only [prepare, bind, EStateM.bind, missed]
  simp only [run, start, accepted, prepared]

theorem run_of_undecodable {path : String} {bytes : ByteArray}
    (accepted : Settings.ofArguments platform.dropsDashes arguments = .ok settings) (named : settings.source = some path)
    (unlisted : settings.tokens = false) (held : disk.readBytes (Path.normal path) = .ok bytes)
    (noText : String.fromUTF8? bytes = none) :
    run platform limit arguments disk stream =
      some ⟨.crash (.session (.file ⟨.undecodable, Path.normal path⟩)), { disk }⟩ := by
  have uncompiled : Session.compileAt platform disk path =
      .error (.file ⟨.undecodable, Path.normal path⟩) := by
    simp only [Session.compileAt, Disk.readText, held, bind, Except.bind, noText, Except.mapError]
  exact run_of_uncompiled accepted named unlisted uncompiled

/-- For every system, all arguments that are accepted, all files and all input, text or not: an
invocation that ends does so with code zero and no error, with code one and an error, or with one of the
failures that nobody reports, each of which has its cause in the arguments, the files, the input or the
limits of the system. The code is one exactly if there is an error among the messages, and its line is
the last one of what is written for errors. Where memories of the size that was asked for can be had,
none is refused. -/
theorem invocation_ends_orderly {outcome : Outcome}
    (accepted : Settings.ofArguments platform.dropsDashes arguments = .ok settings)
    (ended : run platform limit arguments disk stream = some outcome) :
    Ending settings platform disk stream outcome.exit outcome.console.messages ∧
    (outcome.exit = .code 1 ↔ ∃ error, .error error ∈ outcome.console.messages) ∧
    (∀ error, .error error ∈ outcome.console.messages → ∃ lines,
      outcome.console.errorText platform = linesText (lines ++ ["error: " ++ error.report.render])) ∧
    ∀ cells : Nat, platform.Holds cells → (∀ size ∈ settings.memorySize, size ≤ cells) →
      ∀ text, outcome.exit ≠ .crash (.session (.capacity text)) := by
  have ending := ending_of_run accepted ended
  refine ⟨ending, ending.code_one_iff, ?_, ?_⟩
  · intro error member
    obtain ⟨front, messages⟩ := ending.error_last member
    refine ⟨front.flatMap (·.lines platform), ?_⟩
    rw [Console.errorText, messages, List.flatMap_append, List.flatMap_singleton]
    rfl
  · intro cells holds within text refused
    rw [refused] at ending
    obtain ⟨size, asked, more⟩ := ending.holds_capacity holds
    exact absurd (within size asked) (Int.not_le.mpr more)

end Invocation

/-- A missing source file is reported, by the code and by the line of an error. -/
theorem invocation_ends_orderly_missing_source :
    Settings.ofArguments Platform.unlimited.dropsDashes ["a.pas"] = .ok { source := some "a.pas" } ∧
      Platform.unlimited.Holds 1000 ∧
      ∃ outcome, run .unlimited 0 ["a.pas"] {} {} = some outcome ∧ outcome.exit = .code 1 ∧
        (∃ error, .error error ∈ outcome.console.messages ∧ ∃ lines,
          outcome.console.errorText .unlimited = linesText (lines ++ ["error: " ++ error.report.render])) ∧
        (∀ text, outcome.exit ≠ .crash (.session (.capacity text))) ∧
        Ending { source := some "a.pas" } .unlimited {} {} outcome.exit outcome.console.messages := by
  have accepted : Settings.ofArguments Platform.unlimited.dropsDashes ["a.pas"] =
      .ok { source := some "a.pas" } := rfl
  have named : Path.normal "a.pas" = "a.pas" := by decide +kernel
  have noNull : ¬ "a.pas".contains '\x00' = true := by simp
  have missing : Disk.readBytes {} "a.pas" = .error ⟨.notFound, "a.pas"⟩ := by
    rw [Disk.readBytes, Disk.locate, if_neg noNull]
    decide +kernel
  have uncompiled : Session.compileAt .unlimited {} "a.pas" = .error (.file ⟨.notFound, "a.pas"⟩) := by
    simp only [Session.compileAt, Disk.readText, named, missing, Except.mapError, bind, Except.bind]
  have ended : run .unlimited 0 ["a.pas"] {} {} = some _ :=
    run_of_uncompiled accepted rfl rfl uncompiled
  have holds : Platform.unlimited.Holds 1000 := fun _ _ => rfl
  have default : ∀ size ∈ some Machine.defaultMemorySize, size ≤ (1000 : Nat) := by
    rintro _ ⟨⟩
    decide
  obtain ⟨ending, reported, line, granted⟩ := invocation_ends_orderly accepted ended
  obtain ⟨error, member⟩ := reported.mp rfl
  exact ⟨accepted, holds, _, ended, rfl, ⟨error, member, line error member⟩,
    granted 1000 holds default, ending⟩

/-- Two bytes that are no text: the invocation ends neither with a code nor with a message. -/
theorem undecodable_source_escapes :
    ∃ disk : Disk, disk = { entries := [(["b.pas"], .file ⟨#[0xFF, 0x70]⟩)] } ∧
      (∃ settings, Settings.ofArguments Platform.unlimited.dropsDashes ["b.pas"] = .ok settings) ∧
      ∃ outcome, run .unlimited 0 ["b.pas"] disk {} = some outcome ∧
        outcome.exit ≠ .code 0 ∧ outcome.exit ≠ .code 1 ∧ outcome.console.messages = [] := by
  have accepted : Settings.ofArguments Platform.unlimited.dropsDashes ["b.pas"] =
      .ok { source := some "b.pas" } := rfl
  have named : Path.normal "b.pas" = "b.pas" := by decide +kernel
  have noNull : ¬ "b.pas".contains '\x00' = true := by simp
  have held : Disk.readBytes { entries := [(["b.pas"], .file ⟨#[0xFF, 0x70]⟩)] }
      (Path.normal "b.pas") = .ok ⟨#[0xFF, 0x70]⟩ := by
    rw [named, Disk.readBytes, Disk.locate, if_neg noNull]
    decide +kernel
  have noText : String.fromUTF8? ⟨#[0xFF, 0x70]⟩ = none := by decide +kernel
  have ended :
      run .unlimited 0 ["b.pas"] { entries := [(["b.pas"], .file ⟨#[0xFF, 0x70]⟩)] } {} = some _ :=
    run_of_undecodable accepted rfl rfl held noText
  refine ⟨_, rfl, ⟨_, accepted⟩, _, ended, ?_, ?_, rfl⟩
  · intro same
    cases same
  · intro same
    cases same

end Pascalet.CommandLine
