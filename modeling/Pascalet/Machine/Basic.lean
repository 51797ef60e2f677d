import Pascalet.Binary64.Display
import Pascalet.Code.Buffer
import Pascalet.Machine.Input
import Pascalet.Machine.Memory
import Pascalet.Numeral
import Pascalet.Report

namespace Pascalet

inductive Status where
  | ready
  | running
  | halted
  | failed
deriving DecidableEq, Repr

def Status.name : Status → String
  | ready => "ready"
  | running => "running"
  | halted => "halted"
  | failed => "error"

inductive Fault where
  | operandUnderflow
  | emptyReturnStack
  | addressOutOfRange (argument : Argument)
  | targetOutOfRange (argument : Argument)
  | invalidCellCount (argument : Argument)
  | invalidConstant (argument : Argument)
  | unknownOpcode (name : String)
  | noInputLeft
  | invalidInput (word : String)
deriving DecidableEq

def Fault.message : Fault → String
  | operandUnderflow => "Operand stack underflow"
  | emptyReturnStack => "Return with empty return-address stack"
  | addressOutOfRange argument => "Memory address out of range: " ++ argument.quoted
  | targetOutOfRange argument => "Jump target out of range: " ++ argument.quoted
  | invalidCellCount argument => "Invalid cell count: " ++ argument.quoted
  | invalidConstant argument => "Invalid constant: " ++ argument.quoted
  | unknownOpcode name => "Unknown opcode: " ++ name
  | noInputLeft => "No input left for read"
  | invalidInput word => "Invalid numeric input " ++ Text.quote word

inductive MachineError where
  | execution (fault : Fault) (pc : Nat)
  /-- An integer constant beyond the finite numbers. It does not count as a failed execution. -/
  | constantTooLarge
deriving DecidableEq

def MachineError.report : MachineError → Report
  | execution fault pc => Report.execution fault.message (some pc)
  | constantTooLarge => { message := "int too large to convert to float" }

inductive SetupError where
  | negativeMemory (size : Int)
  | notEnoughMemory (needed size : Int)
  /-- There is not enough memory either, but the need has too many digits for a message. -/
  | unwritableNeed
deriving DecidableEq

def SetupError.report : SetupError → Report
  | negativeMemory size =>
    Report.execution ("Memory size must not be negative, got " ++ toString size) none
  | notEnoughMemory needed size =>
    Report.execution ("Program needs " ++ toString needed ++ " memory cells, machine has " ++
      toString size) none
  | unwritableNeed => { message := "Program needs more memory cells than can be written" }

structure Machine where
  code : Buffer
  memory : Memory
  /-- Operands, the top first. -/
  stack : List Binary64 := []
  returns : List Nat := []
  pc : Nat := 0
  steps : Nat := 0
  released : Nat := 0
  status : Status := .ready
  input : Input := {}
  output : Array String := #[]

namespace Machine

def defaultMemorySize : Int := 1000

def setupError? (code : Buffer) (memorySize : Int) : Option SetupError :=
  if memorySize < 0 then some (.negativeMemory memorySize)
  else if memorySize < code.nextAddress then
    if Numeral.isWritable code.nextAddress then
      some (.notEnoughMemory code.nextAddress memorySize)
    else some .unwritableNeed
  else none

def create (code : Buffer) (memorySize : Int) (input : Input) : Except SetupError Machine :=
  match setupError? code memorySize with
  | some error => .error error
  | none => .ok { code, memory := Memory.blank memorySize.toNat, input }

/-- Clears memory, stacks and counters. Lines of input that were taken are not given back. -/
def reset (machine : Machine) : Machine :=
  { code := machine.code
    memory := Memory.blank machine.memory.size
    input := machine.input.dropLine
    output := machine.output }

def outputText (machine : Machine) : String :=
  String.join (machine.output.toList.map (· ++ "\n"))

end Machine

end Pascalet
