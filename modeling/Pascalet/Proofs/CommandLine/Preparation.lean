import Pascalet.Proofs.CommandLine.Orderly
import Pascalet.Proofs.Execution.Correctness
import Pascalet.Proofs.Files.Disk
import Pascalet.Proofs.Files.Session
import Pascalet.Proofs.Renaming.Program

namespace Pascalet.CommandLine

def Settings.Reads (settings : Settings) (opened : String) : Prop :=
  ∃ path, (settings.load = some path ∨ settings.source = some path) ∧
    (opened = path ∨ opened = Path.normal path)

def Settings.Writes (settings : Settings) (opened : String) : Prop :=
  ∃ path, settings.output = some path ∧ opened = Path.normal path

/-- The program that the settings lead to, by one of three ways. -/
inductive Settings.Finds (settings : Settings) (platform : Platform) (disk : Disk) : Program → Prop where
  | loaded {path : String} {program : Program} (named : settings.load = some path)
    (done : Session.load disk path = .ok program) : settings.Finds platform disk program
  | compiled {path : String} {program : Program} (named : settings.source = some path)
    (done : Session.compileAt platform disk path = .ok program) : settings.Finds platform disk program
  | reloaded {path target : String} {first program : Program} {written : Disk}
    (named : settings.source = some path) (done : Session.compileAt platform disk path = .ok first)
    (saved : Session.save disk first target = .ok written)
    (loaded : Session.load written target = .ok program) : settings.Finds platform disk program

def Settings.Starts (settings : Settings) (platform : Platform) (disk : Disk) (stream : Stream)
    (machine : Machine) : Prop :=
  ∃ program size, settings.Finds platform disk program ∧ settings.memorySize = some size ∧
    Machine.create program.code size stream.input.dropLine = .ok machine

/-- The failures that nobody reports, and what leads to them. -/
inductive Escapes (settings : Settings) (platform : Platform) (disk : Disk) (stream : Stream) :
    Failure → Prop where
  | undecodable {opened : String} {bytes : ByteArray} (named : settings.Reads opened)
    (held : disk.readBytes opened = .ok bytes) (noText : String.fromUTF8? bytes = none) :
    Escapes settings platform disk stream (.session (.file ⟨.undecodable, opened⟩))
  | nullCharacter {opened : String} (named : settings.Reads opened ∨ settings.Writes opened)
    (null : opened.contains '\x00' = true) :
    Escapes settings platform disk stream (.session (.file ⟨.nullCharacter, opened⟩))
  | noPath (load : settings.load = some "") (source : settings.source = none) :
    Escapes settings platform disk stream .noPath
  | tooDeep {path source : String} (named : settings.source = some path)
    (held : disk.readText (Path.normal path) = .ok source) (deep : platform.tooDeep source = true) :
    Escapes settings platform disk stream (.session .tooDeep)
  | noMemorySize (absent : settings.memorySize = none) :
    Escapes settings platform disk stream .noMemorySize
  | unwritableNeed {program : Program} {size : Int} (found : settings.Finds platform disk program)
    (asked : settings.memorySize = some size) (more : size < program.code.nextAddress)
    (unwritable : Numeral.isWritable program.code.nextAddress = false) :
    Escapes settings platform disk stream (.session (.setup .unwritableNeed))
  | capacity {size : Int} {text : String} (asked : settings.memorySize = some size)
    (refused : platform.refusal? size.toNat = some text) :
    Escapes settings platform disk stream (.session (.capacity text))
  | undecodableInput {machine stopped : Machine} {limit : Nat}
    (starts : settings.Starts platform disk stream machine)
    (reads : machine.run limit = .stopped stopped (some (.execution .noInputLeft stopped.pc)))
    (spoilt : stream.decodes = false) : Escapes settings platform disk stream .undecodableInput
  | outOfMemory {machine : Machine} {steps : Nat}
    (starts : settings.Starts platform disk stream machine)
    (exhausted : platform.exhaustion? machine = some steps) :
    Escapes settings platform disk stream .outOfMemory

def Failure.isReported : Failure → Bool
  | session error => error.isReported
  | _ => false

def Permitted (settings : Settings) (platform : Platform) (disk : Disk) (stream : Stream)
    (failure : Failure) : Prop :=
  failure.isReported = true ∨ Escapes settings platform disk stream failure

variable {settings : Settings} {platform : Platform} {disk : Disk} {stream : Stream}

theorem permitted_read {opened : String} {error : FileError} (named : settings.Reads opened)
    (failed : disk.readText opened = .error error) :
    Permitted settings platform disk stream (.session (.file error)) := by
  rcases disk.of_readText_error failed with system | ⟨rfl, null⟩ | ⟨bytes, held, noText, rfl⟩
  · exact .inl system
  · exact .inr (.nullCharacter (.inl named) null)
  · exact .inr (.undecodable named held noText)

theorem reads_source {path : String} (named : settings.source = some path) :
    settings.Reads path ∧ settings.Reads (Path.normal path) :=
  ⟨⟨path, .inr named, .inl rfl⟩, ⟨path, .inr named, .inr rfl⟩⟩

theorem permitted_compile {path : String} {error : SessionError} (named : settings.source = some path)
    (failed : Session.compileAt platform disk path = .error error) :
    Permitted settings platform disk stream (.session error) := by
  rcases Session.compileAt_cases platform disk path with
    ⟨cause, unread, shown⟩ | ⟨source, held, deep, shown⟩ | ⟨source, cause, refused, shown⟩ |
      ⟨source, program, _, shown⟩
  · rw [shown] at failed
    cases failed
    exact permitted_read (reads_source named).2 unread
  · rw [shown] at failed
    cases failed
    exact .inr (.tooDeep named held deep)
  · rw [shown] at failed
    cases failed
    have located := Program.line?_of_compile refused
    left
    cases cause with
    | jump fault => cases located
    | _ => rfl
  · rw [shown] at failed
    cases failed

theorem of_load_error {path : String} {error : SessionError}
    (failed : Session.load disk path = .error error) :
    (∃ cause, disk.readText (Path.normal path) = .error cause ∧ error = .file cause) ∨
      error.isReported = true := by
  rcases Session.load_cases disk path with
    ⟨cause, unread, shown⟩ | ⟨text, cause, _, shown⟩ | ⟨text, code, _, shown⟩
  · rw [shown] at failed
    cases failed
    exact .inl ⟨cause, unread, rfl⟩
  · rw [shown] at failed
    cases failed
    exact .inr rfl
  · rw [shown] at failed
    cases failed

theorem permitted_load {path : String} {error : SessionError} (named : settings.load = some path)
    (failed : Session.load disk path = .error error) : Permitted settings platform disk stream (.session error) := by
  rcases of_load_error failed with ⟨cause, unread, rfl⟩ | reported
  · exact permitted_read ⟨path, .inl named, .inr rfl⟩ unread
  · exact .inl reported

theorem permitted_save {program : Program} {target : String} {error : SessionError}
    (named : settings.output = some target) (failed : Session.save disk program target = .error error) :
    Permitted settings platform disk stream (.session error) := by
  rcases Session.save_cases disk target program with ⟨cause, unwritten, shown⟩ | ⟨written, _, shown⟩
  · rw [shown] at failed
    cases failed
    rcases disk.of_writeText_error unwritten with system | ⟨rfl, null⟩
    · exact .inl system
    · exact .inr (.nullCharacter (.inr ⟨target, named, rfl⟩) null)
  · rw [shown] at failed
    cases failed

/-- What was saved can be opened again, so only its text can be at fault. -/
theorem reported_reload {program : Program} {target : String} {written : Disk} {error : SessionError}
    (saved : Session.save disk program target = .ok written)
    (failed : Session.load written target = .error error) : error.isReported = true := by
  rcases of_load_error failed with ⟨cause, unread, rfl⟩ | reported
  · rcases Session.save_cases disk target program with ⟨_, _, shown⟩ | ⟨after, done, shown⟩
    · rw [shown] at saved
      cases saved
    · rw [shown] at saved
      cases saved
      rw [Disk.readText_of_writeText done] at unread
      cases unread
  · exact reported

theorem orderly_listTokens {path : String} (named : settings.source = some path) :
    Orderly settings (Permitted settings platform disk stream) disk (fun _ reached => disk = reached)
      (listTokens path) := by
  apply orderly_get.bind
  rintro console _ ⟨here, rfl⟩
  rw [here]
  apply (orderly_obtain ?_).bind
  · rintro source _ ⟨rfl, _⟩
    apply (orderly_print _).bind
    rintro _ _ rfl
    apply (orderly_forM (fun token => orderly_print _) _).bind
    rintro _ _ rfl
    split
    · exact orderly_throw (.inl rfl)
    · exact orderly_print _
  · intro error failed
    cases opened : disk.readText path with
    | ok source =>
      rw [opened] at failed
      cases failed
    | error cause =>
      rw [opened] at failed
      cases failed
      exact permitted_read (reads_source named).1 opened

theorem orderly_compileProgram {path : String} (named : settings.source = some path) :
    Orderly settings (Permitted settings platform disk stream) disk
      (fun program reached => disk = reached ∧ Session.compileAt platform disk path = .ok program)
      (compileProgram platform settings path) := by
  apply orderly_get.bind
  rintro console _ ⟨here, rfl⟩
  rw [here]
  apply (orderly_obtain fun _ failed => permitted_compile named failed).bind
  rintro program _ ⟨rfl, done⟩
  apply (orderly_noteCells _ _ _).bind
  rintro _ _ rfl
  exact orderly_pure ⟨rfl, done⟩

theorem orderly_loadProgram {permits : Failure → Prop} {path : String}
    (permitted : ∀ error, Session.load disk path = .error error → permits (.session error)) :
    Orderly settings permits disk
      (fun program reached => disk = reached ∧ Session.load disk path = .ok program)
      (loadProgram settings path) := by
  apply orderly_get.bind
  rintro console _ ⟨here, rfl⟩
  rw [here]
  apply (orderly_obtain permitted).bind
  rintro program _ ⟨rfl, done⟩
  apply (orderly_noteCells _ _ _).bind
  rintro _ _ rfl
  exact orderly_pure ⟨rfl, done⟩

theorem orderly_saveProgram {program : Program} {target : String}
    (named : settings.output = some target) :
    Orderly settings (Permitted settings platform disk stream) disk
      (fun _ written => Session.save disk program target = .ok written)
      (saveProgram settings program target) := by
  apply orderly_get.bind
  rintro console _ ⟨here, rfl⟩
  rw [here]
  apply (orderly_obtain fun _ failed => permitted_save named failed).bind
  rintro written _ ⟨rfl, done⟩
  have stored : Orderly settings (Permitted settings platform disk stream) disk (fun _ reached => written = reached)
      (modify fun console => { console with disk := written }) :=
    ⟨fun _ _ => ⟨.of_messages rfl, rfl⟩⟩
  apply stored.bind
  rintro _ _ rfl
  exact (orderly_note _ _).mono fun _ _ same => same ▸ done

theorem orderly_buildProgram {path : String} (named : settings.source = some path) :
    Orderly settings (Permitted settings platform disk stream) disk
      (fun program _ => settings.Finds platform disk program) (buildProgram platform settings path) := by
  unfold buildProgram
  dsimp only
  apply orderly_optional (orderly_listTokens named)
  apply (orderly_compileProgram named).bind
  rintro program _ ⟨rfl, compiled⟩
  apply (orderly_print _).bind
  rintro _ _ rfl
  apply orderly_optional (orderly_print _)
  apply orderly_optional (orderly_print _)
  cases chosen : settings.output.filter (· ≠ "") with
  | none => exact orderly_pure (.compiled named compiled)
  | some target =>
    have output : settings.output = some target := (Option.filter_eq_some_iff.mp chosen).1
    apply (orderly_saveProgram output).bind
    intro _ written saved
    apply (orderly_print _).bind
    rintro _ _ rfl
    have permitted : ∀ error, Session.load written target = .error error →
        Permitted settings platform disk stream (.session error) :=
      fun _ failed => .inl (reported_reload saved failed)
    exact (orderly_loadProgram permitted).mono fun _ _ loaded =>
      .reloaded named compiled saved loaded.2

theorem Settings.source_or_load {dropsDashes : Bool} {arguments : List String}
    (accepted : Settings.ofArguments dropsDashes arguments = .ok settings) :
    settings.source.isNone ≠ settings.load.isNone := by
  unfold Settings.ofArguments at accepted
  cases words : (Word.ofArguments arguments).mapError Refusal.usage with
  | error refusal => simp [words, bind, Except.bind] at accepted
  | ok words' =>
    cases read : Reading.ofWords dropsDashes {} words' with
    | error refusal => simp [words, read, bind, Except.bind] at accepted
    | ok reading =>
      simp only [words, read, bind, Except.bind] at accepted
      split at accepted
      · cases accepted
      · split at accepted
        · cases accepted
        next apart =>
          cases accepted
          exact apart

theorem orderly_findProgram (given : settings.source.isNone ≠ settings.load.isNone) :
    Orderly settings (Permitted settings platform disk stream) disk
      (fun program _ => settings.Finds platform disk program) (findProgram platform settings) := by
  unfold findProgram
  cases chosen : settings.load.filter (· ≠ "") with
  | some path =>
    have named : settings.load = some path := (Option.filter_eq_some_iff.mp chosen).1
    apply (orderly_loadProgram fun _ failed => permitted_load named failed).bind
    rintro program _ ⟨rfl, loaded⟩
    apply (orderly_print _).bind
    rintro _ _ rfl
    exact orderly_pure (.loaded named loaded)
  | none =>
    cases named : settings.source with
    | some path => exact orderly_buildProgram named
    | none =>
      apply orderly_throw
      right
      refine .noPath ?_ named
      cases load : settings.load with
      | none => exact absurd (by rw [named, load]) given
      | some path =>
        rw [load] at chosen
        simpa using chosen

theorem permitted_setup {program : Program} {size : Int} {error : SetupError}
    (found : settings.Finds platform disk program) (asked : settings.memorySize = some size)
    (refused : Machine.setupError? program.code size = some error) :
    Permitted settings platform disk stream (.session (.setup error)) := by
  unfold Machine.setupError? at refused
  split at refused
  next =>
    cases refused
    exact .inl rfl
  next =>
    split at refused
    next short =>
      split at refused
      next =>
        cases refused
        exact .inl rfl
      next unwritable =>
        cases refused
        exact .inr (.unwritableNeed found asked short (Bool.eq_false_iff.mpr unwritable))
    next => cases refused

theorem permitted_prepare {program : Program} {size : Int} {error : SessionError}
    (found : settings.Finds platform disk program) (asked : settings.memorySize = some size)
    (failed : Session.prepare platform program.code size stream.input = .error error) :
    Permitted settings platform disk stream (.session error) := by
  rcases Session.prepare_cases platform program.code size stream.input with ⟨text, beyond, shown⟩ | shown
  · rw [shown] at failed
    cases failed
    exact .inr (.capacity asked beyond)
  · rw [shown, Machine.create] at failed
    cases refused : Machine.setupError? program.code size with
    | some cause =>
      rw [refused] at failed
      cases failed
      exact permitted_setup found asked refused
    | none =>
      rw [refused] at failed
      cases failed

theorem create_of_prepare {code : Buffer} {size : Int} {input : Input} {machine : Machine}
    (done : Session.prepare platform code size input = .ok machine) :
    Machine.create code size input.dropLine = .ok machine := by
  rcases Session.prepare_cases platform code size input with ⟨_, _, shown⟩ | shown
  · rw [shown] at done
    cases done
  · rw [shown] at done
    cases created : Machine.create code size input.dropLine with
    | ok first =>
      rw [created] at done
      cases done
      rfl
    | error error =>
      rw [created] at done
      cases done

theorem orderly_prepare (given : settings.source.isNone ≠ settings.load.isNone) :
    Orderly settings (Permitted settings platform disk stream) disk
      (fun machine? _ => ∀ machine ∈ machine?, settings.Starts platform disk stream machine)
      (prepare platform settings stream) := by
  unfold prepare
  apply (orderly_findProgram given).bind
  intro program reached found
  cases settings.noRun with
  | true => exact orderly_pure nofun
  | false =>
    apply (orderly_print _).bind
    rintro _ _ rfl
    cases asked : settings.memorySize with
    | none => exact orderly_throw (.inr (.noMemorySize asked))
    | some size =>
      apply (orderly_obtain fun _ failed => permitted_prepare found asked failed).bind
      rintro machine _ ⟨rfl, done⟩
      have starts : settings.Starts platform disk stream machine :=
        ⟨program, size, found, asked, create_of_prepare done⟩
      apply orderly_pure
      rintro _ ⟨⟩
      exact starts

end Pascalet.CommandLine
