import Pascalet.CommandLine.Arguments
import Pascalet.Session

namespace Pascalet.CommandLine

inductive Channel where
  | compiler
  | objectText
  | session
  | machine

def Channel.name : Channel → String
  | compiler => "minipascal.compiler.parser"
  | objectText => "minipascal.compiler.bytecode"
  | session => "minipascal.api.context"
  | machine => "minipascal.api.interpreter"

inductive Message where
  | note (channel : Channel) (text : String)
  | remark (remark : Remark)
  | usage (error : UsageError)
  | error (error : SessionError)

def Message.lines (platform : Platform) : Message → List String
  | note channel text => ["DEBUG:" ++ channel.name ++ ":" ++ text]
  | remark kind => platform.remarkLines kind
  | usage cause => usageLines ++ [programName ++ ": error: " ++ cause.message]
  | error cause => ["error: " ++ cause.report.render]

structure Console where
  output : String := ""
  messages : List Message := []
  disk : Disk

namespace Console

def errorText (platform : Platform) (console : Console) : String :=
  linesText (console.messages.flatMap (·.lines platform))

def report (console : Console) (message : Message) : Console :=
  { console with messages := console.messages ++ [message] }

def note (console : Console) (settings : Settings) (message : Message) : Console :=
  if settings.verbose then console.report message else console

end Console

inductive Failure where
  | session (error : SessionError)
  | noPath
  | noMemorySize
  | undecodableInput
  | outOfMemory
deriving DecidableEq

inductive Exit where
  | code (value : Nat)
  | crash (failure : Failure)
deriving DecidableEq

structure Outcome where
  exit : Exit
  console : Console

abbrev Action := EStateM Failure Console

def print (line : String) : Action Unit :=
  modify fun console => { console with output := console.output ++ line ++ "\n" }

def note (settings : Settings) (channel : Channel) (text : String) : Action Unit :=
  modify (·.note settings (.note channel text))

def noteCells (settings : Settings) (channel : Channel) (text : String) (cells : Int) : Action Unit :=
  if Numeral.isWritable cells then note settings channel (text ++ toString cells ++ " cells")
  else modify (·.note settings (.remark .unwritableNumber))

def obtain {α : Type} (result : Except SessionError α) : Action α :=
  match result with
  | .ok value => pure value
  | .error error => throw (.session error)

def counted (count : Nat) (things : String) : String :=
  toString count ++ " " ++ things

def listTokens (path : String) : Action Unit := do
  let source ← obtain (((← get).disk.readText path).mapError .file)
  let list := tokenize source
  print "=== Tokens ==="
  list.tokens.forM (print ·.describe)
  match list.failure with
  | some failure => throw (.session (.compile (.invalidCharacter failure) none))
  | none => print (">>> " ++ counted list.tokens.length "tokens")

def compileProgram (platform : Platform) (settings : Settings) (path : String) : Action Program := do
  let program ← obtain (Session.compileAt platform (← get).disk path)
  noteCells settings .compiler ("compiled program " ++ Text.quote program.name ++ ": " ++
    counted program.code.size "instructions, " ++ counted program.symbols.symbols.length "symbols, ")
    program.code.nextAddress
  pure program

def loadProgram (settings : Settings) (path : String) : Action Program := do
  let program ← obtain (Session.load (← get).disk path)
  noteCells settings .objectText ("decoded " ++ counted program.code.size "instructions, ")
    program.code.nextAddress
  pure program

def saveProgram (settings : Settings) (program : Program) (path : String) : Action Unit := do
  let disk ← obtain (Session.save (← get).disk program path)
  modify fun console => { console with disk }
  note settings .session ("saved " ++ counted program.code.size "instructions to " ++ path)

/-- Compiles a source file with all listings. A program that is saved is used as it is loaded again;
an empty name asks for no object file. -/
def buildProgram (platform : Platform) (settings : Settings) (path : String) : Action Program := do
  if settings.tokens then listTokens path
  let program ← compileProgram platform settings path
  print (">>> Compiled " ++ path ++ ": " ++ counted program.code.size "instructions")
  if settings.symbols then print program.symbols.listing
  if settings.listing then print program.code.listing
  match settings.output.filter (· ≠ "") with
  | none => pure program
  | some target =>
    saveProgram settings program target
    print (">>> Object code written to " ++ target)
    loadProgram settings target

def findProgram (platform : Platform) (settings : Settings) : Action Program :=
  match settings.load.filter (· ≠ ""), settings.source with
  | some path, _ => do
    let program ← loadProgram settings path
    print (">>> " ++ counted program.code.size "instructions loaded from " ++ path)
    pure program
  | none, some path => buildProgram platform settings path
  | none, none => throw .noPath

/-- Everything up to the first step of the program; there is no machine if the program is not to be
run. -/
def prepare (platform : Platform) (settings : Settings) (stream : Stream) : Action (Option Machine) := do
  let program ← findProgram platform settings
  if settings.noRun then pure none
  else
    print "=== Running ==="
    match settings.memorySize with
    | none => throw .noMemorySize
    | some size =>
      let machine ← obtain (Session.prepare platform program.code size stream.input)
      pure (some machine)

def fail (failure : Failure) (console : Console) : Outcome :=
  match failure with
  | .session error =>
    if error.isReported then ⟨.code 1, console.report (.error error)⟩ else ⟨.crash failure, console⟩
  | _ => ⟨.crash failure, console⟩

/-- What follows when the program has ended. Asked for a line that cannot be decoded, it has not failed
for want of input. -/
def conclude (settings : Settings) (stream : Stream) (console : Console) (machine : Machine)
    (error : Option MachineError) : Outcome :=
  let printed := { console with output := console.output ++ machine.outputText }
  match error with
  | none =>
    let noted := printed.note settings
      (.note .machine ("machine halted after " ++ counted machine.steps "steps"))
    ⟨.code 0, { noted with output := noted.output ++ "=== Finished ===\n" }⟩
  | some (.execution fault pc) =>
    if fault = .noInputLeft ∧ stream.decodes = false then fail .undecodableInput printed
    else
      let noted := printed.note settings (.note .machine ("machine failed at pc=" ++
        toString machine.pc ++ " after " ++ counted machine.steps "steps"))
      fail (.session (.machine (.execution fault pc))) noted
  | some .constantTooLarge => fail (.session (.machine .constantTooLarge)) printed

inductive Stage where
  | ended (outcome : Outcome)
  | running (settings : Settings) (console : Console) (machine : Machine)

def start (platform : Platform) (arguments : List String) (disk : Disk) (stream : Stream) : Stage :=
  match Settings.ofArguments platform.dropsDashes arguments with
  | .error .help => .ended ⟨.code 0, { output := linesText helpLines, disk }⟩
  | .error (.usage error) => .ended ⟨.code 2, { messages := [.usage error], disk }⟩
  | .ok settings =>
    match prepare platform settings stream { disk } with
    | .error failure console => .ended (fail failure console)
    | .ok none console => .ended ⟨.code 0, console⟩
    | .ok (some machine) console => .running settings console machine

/-- Runs a program, as far as there is room for it. An overflow is remarked before the program's end is
noted. -/
def execute (platform : Platform) (limit : Nat) (settings : Settings) (stream : Stream)
    (console : Console) (machine : Machine) : Option Outcome :=
  let exhausted := (platform.exhaustion? machine).filter (· ≤ limit)
  let steps := exhausted.getD limit
  let remarked := if machine.overflows steps then console.report (.remark .overflow) else console
  match machine.run steps with
  | .stopped stopped error => some (conclude settings stream remarked stopped error)
  | .unfinished paused =>
    exhausted.map fun _ =>
      fail .outOfMemory { remarked with output := remarked.output ++ paused.outputText }

def run (platform : Platform) (limit : Nat) (arguments : List String) (disk : Disk) (stream : Stream) :
    Option Outcome :=
  match start platform arguments disk stream with
  | .ended outcome => some outcome
  | .running settings console machine => execute platform limit settings stream console machine

end Pascalet.CommandLine
