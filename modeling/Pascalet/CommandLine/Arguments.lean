import Pascalet.Machine.Basic

namespace Pascalet.CommandLine

def programName : String := "minipascal"

def usageLines : List String :=
  ["usage: minipascal [-h] [--load OBJ] [-o OBJ] [--tokens] [--symbols]",
    "                  [--listing] [--no-run] [--memory-size MEMORY_SIZE] [-v]",
    "                  [source]"]

def helpLines : List String :=
  usageLines ++ ["",
    "Mini-Pascal -> stack machine compiler and runner",
    "",
    "positional arguments:",
    "  source                input source file",
    "",
    "options:",
    "  -h, --help            show this help message and exit",
    "  --load OBJ            run a saved object file instead of compiling",
    "  -o OBJ, --output OBJ  write the object file here",
    "  --tokens              print the token stream",
    "  --symbols             print the symbol table",
    "  --listing             print the generated code",
    "  --no-run              compile only",
    "  --memory-size MEMORY_SIZE",
    "                        machine memory cells (default 1000)",
    "  -v, --verbose         debug logging"]

def linesText (lines : List String) : String :=
  String.join (lines.map (· ++ "\n"))

inductive Switch where
  | help | load | output | tokens | symbols | listing | noRun | memorySize | verbose
deriving DecidableEq, Repr

namespace Switch

def spellings : List (String × Switch) :=
  [("-h", help), ("--help", help), ("--load", load), ("-o", output), ("--output", output),
    ("--tokens", tokens), ("--symbols", symbols), ("--listing", listing), ("--no-run", noRun),
    ("--memory-size", memorySize), ("-v", verbose), ("--verbose", verbose)]

def ofSpelling? (spelling : String) : Option Switch :=
  spellings.lookup spelling

def takesValue : Switch → Bool
  | load | output | memorySize => true
  | _ => false

def title (switch : Switch) : String :=
  "/".intercalate ((spellings.filter (·.2 = switch)).map (·.1))

end Switch

inductive UsageError where
  | ambiguous (written : String) (candidates : List String)
  | missingValue (switch : Switch)
  | ignoredValue (switch : Switch) (value : String)
  | notInteger (value : String)
  | notPositive (value : Int)
  | unrecognized (words : List String)
  | sourceOrObject
deriving DecidableEq

namespace UsageError

def about (switch : Switch) (text : String) : String :=
  "argument " ++ switch.title ++ ": " ++ text

def message : UsageError → String
  | ambiguous written candidates =>
    "ambiguous option: " ++ written ++ " could match " ++ ", ".intercalate candidates
  | missingValue switch => about switch "expected one argument"
  | ignoredValue switch value => about switch ("ignored explicit argument " ++ Text.quote value)
  | notInteger value => about .memorySize ("not an integer: " ++ Text.quote value)
  | notPositive value => about .memorySize ("must be positive, got " ++ toString value)
  | unrecognized words => "unrecognized arguments: " ++ " ".intercalate words
  | sourceOrObject => "give either a source file or --load OBJ"

end UsageError

structure Settings where
  source : Option String := none
  load : Option String := none
  output : Option String := none
  tokens : Bool := false
  symbols : Bool := false
  listing : Bool := false
  noRun : Bool := false
  /-- Absent only if the switch was given without a value. -/
  memorySize : Option Int := some Machine.defaultMemorySize
  verbose : Bool := false
deriving DecidableEq

inductive Refusal where
  | help
  | usage (error : UsageError)
deriving DecidableEq

/-- The effects of one word: switches with their values, and a last one that takes its value from the
next word. -/
structure Cluster where
  switches : List (Switch × Option String) := []
  awaiting : Option Switch := none

namespace Cluster

def bare (switch : Switch) : Cluster :=
  if switch.takesValue then { awaiting := some switch } else { switches := [(switch, none)] }

def withValue (switch : Switch) (value : String) : Except UsageError Cluster :=
  if switch.takesValue then .ok { switches := [(switch, some value)] }
  else .error (.ignoredValue switch value)

def addFirst (switch : Switch) (cluster : Cluster) : Cluster :=
  { cluster with switches := (switch, none) :: cluster.switches }

def ofLetters (switch : Switch) : (attached : List Char) → Except UsageError Cluster
  | [] => .ok (bare switch)
  | letter :: rest =>
    if switch.takesValue then withValue switch (String.ofList (letter :: rest))
    else match Switch.ofSpelling? (String.ofList ['-', letter]) with
      | some next => (ofLetters next rest).map (addFirst switch)
      | none => .error (.ignoredValue switch (String.ofList (letter :: rest)))

/-- A short switch at the beginning of a word. An equals sign right behind it is dropped; if nothing
follows the sign, the value is empty. -/
def ofShort (switch : Switch) : (attached : List Char) → Except UsageError Cluster
  | ['='] => withValue switch ""
  | '=' :: attached => ofLetters switch attached
  | attached => ofLetters switch attached

def ofLong (switch : Switch) : (value : Option String) → Except UsageError Cluster
  | none => .ok (bare switch)
  | some value => withValue switch value

end Cluster

inductive Word where
  | plain (text : String)
  | separator
  | switches (cluster : Except UsageError Cluster)
  | unknown (text : String)

namespace Word

def valueBehindEquals (text : List Char) : Option String :=
  match text.dropWhile (· ≠ '=') with
  | _ :: value => some (String.ofList value)
  | [] => none

def longCandidates (text : List Char) : List (String × Switch) :=
  let start := text.takeWhile (· ≠ '=')
  match Switch.spellings.filter fun (spelling, _) => spelling.toList = start with
  | [] => Switch.spellings.filter fun (spelling, _) => start.isPrefixOf spelling.toList
  | exact => exact

/-- A minus sign before digits, or before digits with a point in front of the last of them. -/
def isNegativeNumber (text : List Char) : Bool :=
  let isDigit := fun c => (Text.digitValue? c).isSome
  match text with
  | '-' :: rest =>
    let number := if rest.getLast? = some '\n' then rest.dropLast else rest
    match number.dropWhile isDigit with
    | [] => !number.isEmpty
    | '.' :: fraction => !fraction.isEmpty && fraction.all isDigit
    | _ => false
  | _ => false

def stray (written : String) : Word :=
  if isNegativeNumber written.toList || written.contains ' ' then .plain written
  else .unknown written

def ofText (written : String) : Except UsageError Word :=
  match written.toList with
  | '-' :: '-' :: name =>
    let text := '-' :: '-' :: name
    match longCandidates text with
    | [] => .ok (stray written)
    | [(_, switch)] => .ok (.switches (Cluster.ofLong switch (valueBehindEquals text)))
    | several => .error (.ambiguous written (several.map (·.1)))
  | '-' :: letter :: attached =>
    match Switch.ofSpelling? (String.ofList ['-', letter]) with
    | some switch => .ok (.switches (Cluster.ofShort switch attached))
    | none => .ok (stray written)
  | _ => .ok (.plain written)

def ofArguments : List String → Except UsageError (List Word)
  | [] => .ok []
  | "--" :: rest => .ok (.separator :: rest.map .plain)
  | written :: rest => do
    let word ← ofText written
    let words ← ofArguments rest
    .ok (word :: words)

end Word

inductive Slot where
  | empty
  | justFilled
  | filled
deriving DecidableEq

structure Reading where
  settings : Settings := {}
  slot : Slot := .empty
  extras : List String := []

namespace Reading

def memorySize (text : String) : Except UsageError Int :=
  match Numeral.integer? text.toList with
  | none => .error (.notInteger text)
  | some value => if value < 1 then .error (.notPositive value) else .ok value

def applySwitch (settings : Settings) (switch : Switch) (value : Option String) :
    Except Refusal Settings :=
  match switch with
  | .help => .error .help
  | .load => .ok { settings with load := some (value.getD "") }
  | .output => .ok { settings with output := some (value.getD "") }
  | .tokens => .ok { settings with tokens := true }
  | .symbols => .ok { settings with symbols := true }
  | .listing => .ok { settings with listing := true }
  | .noRun => .ok { settings with noRun := true }
  | .verbose => .ok { settings with verbose := true }
  | .memorySize =>
    match value.mapM memorySize with
    | .ok size => .ok { settings with memorySize := size }
    | .error error => .error (.usage error)

def settle (reading : Reading) : Reading :=
  { reading with slot := if reading.slot = .empty then .empty else .filled }

def addExtra (reading : Reading) (text : String) : Reading :=
  { reading.settle with extras := reading.extras ++ [text] }

def applyCluster (dropsDashes : Bool) (reading : Reading) (cluster : Cluster)
    (awaited : Option String) : Except Refusal Reading := do
  let switches := cluster.switches ++ cluster.awaiting.toList.map (·, awaited)
  let settings ← switches.foldlM (fun settings (switch, value) =>
    applySwitch settings switch (value.filter fun text => !(dropsDashes && text = "--"))) reading.settings
  .ok { reading.settle with settings }

def plain (reading : Reading) (text : String) : Reading :=
  if reading.slot = .empty then
    { reading with settings := { reading.settings with source := some text }, slot := .justFilled }
  else reading.addExtra text

/-- Two dashes are dropped in front of the source file and right behind it. -/
def separator (reading : Reading) : Reading :=
  if reading.slot = .filled then reading.addExtra "--" else reading

end Reading

def Reading.ofWords (dropsDashes : Bool) (reading : Reading) : List Word → Except Refusal Reading
  | [] => .ok reading
  | .plain text :: rest => ofWords dropsDashes (reading.plain text) rest
  | .separator :: rest => ofWords dropsDashes reading.separator rest
  | .unknown text :: rest => ofWords dropsDashes (reading.addExtra text) rest
  | .switches (.error error) :: _ => .error (.usage error)
  | .switches (.ok cluster) :: rest =>
    match cluster.awaiting with
    | none => do
      let applied ← reading.applyCluster dropsDashes cluster none
      ofWords dropsDashes applied rest
    | some switch =>
      match rest with
      | .plain value :: behind => do
        let applied ← reading.applyCluster dropsDashes cluster (some value)
        ofWords dropsDashes applied behind
      | _ => .error (.usage (.missingValue switch))

def Settings.ofArguments (dropsDashes : Bool) (arguments : List String) : Except Refusal Settings := do
  let words ← (Word.ofArguments arguments).mapError .usage
  let reading ← Reading.ofWords dropsDashes {} words
  if !reading.extras.isEmpty then .error (.usage (.unrecognized reading.extras))
  else if reading.settings.source.isNone = reading.settings.load.isNone then
    .error (.usage .sourceOrObject)
  else .ok reading.settings

end Pascalet.CommandLine
