import Pascalet.Code.ObjectText
import Pascalet.Compiler.Program
import Pascalet.Files.Disk
import Pascalet.Machine.Run

namespace Pascalet

def version : String := "0.1.0"

inductive Remark where
  | overflow
  | unwritableNumber
deriving DecidableEq

/-- What is up to the system that a program is compiled and run on. -/
structure Platform where
  /-- What is said of a memory of so many cells that cannot be had. -/
  refusal? : (cells : Nat) → Option String
  /-- Is a source text nested deeper than the stack of the compiler? -/
  tooDeep : (source : String) → Bool
  /-- The number of the step for which a machine finds no more room. -/
  exhaustion? : Machine → Option Nat
  remarkLines : Remark → List String
  /-- Older readers of arguments take two dashes that are attached to a switch for no value. -/
  dropsDashes : Bool

namespace Platform

/-- Memories of up to so many cells can be had. -/
def Holds (platform : Platform) (cells : Nat) : Prop :=
  ∀ fewer ≤ cells, platform.refusal? fewer = none

def unlimited : Platform where
  refusal? _ := none
  tooDeep _ := false
  exhaustion? _ := none
  remarkLines _ := []
  dropsDashes := false

end Platform

inductive SessionError where
  | file (error : FileError)
  | tooDeep
  | compile (error : CompileError) (path : Option String)
  | object (error : ObjectError) (path : Option String)
  | setup (error : SetupError)
  | capacity (text : String)
  | machine (error : MachineError)
deriving DecidableEq

namespace SessionError

def report : SessionError → Report
  | file error => { message := error.message }
  | tooDeep => { message := "Source text is nested too deeply" }
  | compile error path => { error.report with file := path }
  | object error path => { error.report with file := path }
  | setup error => error.report
  | capacity text => { message := text }
  | machine error => error.report

/-- Errors of programs and of the file system. The others show a defect of the environment. -/
def isReported : SessionError → Bool
  | file error => error.isSystemError
  | tooDeep => false
  | compile (.jump _) _ => false
  | setup .unwritableNeed => false
  | capacity _ => false
  | machine .constantTooLarge => false
  | _ => true

end SessionError

namespace Session

def compileText (platform : Platform) (source path : String) : Except SessionError Program :=
  if platform.tooDeep source then .error .tooDeep
  else (Program.compile source).mapError (.compile · (some path))

def compileFile (platform : Platform) (disk : Disk) (path : String) : Except SessionError Program := do
  let source ← (disk.readText path).mapError .file
  compileText platform source path

def compileAt (platform : Platform) (disk : Disk) (path : String) : Except SessionError Program := do
  let source ← (disk.readText (Path.normal path)).mapError .file
  compileText platform source path

/-- Loads an object file. The program takes its name from the file and has no symbols. -/
def load (disk : Disk) (path : String) : Except SessionError Program := do
  let text ← (disk.readText (Path.normal path)).mapError .file
  let code ← (ObjectText.read text).mapError (.object · (some path))
  .ok { name := Path.stem path, code }

def save (disk : Disk) (program : Program) (path : String) : Except SessionError Disk :=
  (disk.writeText (Path.normal path) (ObjectText.write program.code)).mapError .file

def prepare (platform : Platform) (code : Buffer) (memorySize : Int) (input : Input) :
    Except SessionError Machine :=
  match Machine.setupError? code memorySize, platform.refusal? memorySize.toNat with
  | none, some text => .error (.capacity text)
  | _, _ => (Machine.create code memorySize input.dropLine).mapError .setup

end Session

end Pascalet
