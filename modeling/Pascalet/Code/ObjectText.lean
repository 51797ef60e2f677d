import Pascalet.Code.Measure
import Pascalet.Numeral
import Pascalet.Report
import Pascalet.Text.Lines

namespace Pascalet

inductive ObjectFault where
  | unknownMnemonic (mnemonic : String)
  | missingArgument (opcode : Opcode)
  | notInteger (opcode : Opcode) (argument : String)
  | notNumber (opcode : Opcode) (argument : String)
  | unexpectedArgument (opcode : Opcode)
deriving DecidableEq

def ObjectFault.message : ObjectFault → String
  | unknownMnemonic mnemonic => "Unknown mnemonic " ++ Text.quote mnemonic
  | missingArgument opcode => opcode.mnemonic ++ " requires an argument"
  | notInteger opcode argument =>
    opcode.mnemonic ++ " expects an integer, got " ++ Text.quote argument
  | notNumber opcode argument => opcode.mnemonic ++ " expects a number, got " ++ Text.quote argument
  | unexpectedArgument opcode => opcode.mnemonic ++ " takes no argument"

structure ObjectError where
  fault : ObjectFault
  line : Nat
deriving DecidableEq

def ObjectError.report (error : ObjectError) : Report :=
  { message := error.fault.message, line := some error.line }

namespace ObjectText

def write (buffer : Buffer) : String :=
  String.join (buffer.instructions.toList.map fun instruction => instruction.text ++ "\n")

/-- An integer is read, a numeral is only checked and kept as it is written. -/
def readArgument (opcode : Opcode) (operand : List Char) : Except ObjectFault Argument :=
  match opcode.operand, operand with
  | .absent, [] => .ok .absent
  | .absent, _ => .error (.unexpectedArgument opcode)
  | _, [] => .error (.missingArgument opcode)
  | .integer, text =>
    match Numeral.integer? text with
    | some value => .ok (.integer value)
    | none => .error (.notInteger opcode (String.ofList text))
  | .numeral, text =>
    if (Numeral.real? text).isSome then .ok (.text (String.ofList text))
    else .error (.notNumber opcode (String.ofList text))

def readLine (line : List Char) : Except ObjectFault (Option Instruction) :=
  match Text.splitWord (Text.trim line) with
  | ([], _) => .ok none
  | (mnemonic, operand) =>
    match Opcode.ofMnemonic? (String.ofList mnemonic) with
    | none => .error (.unknownMnemonic (String.ofList mnemonic))
    | some opcode => (readArgument opcode operand).map fun argument => some ⟨opcode, argument⟩

def readLines : (number : Nat) → List (List Char) → Except ObjectError (List Instruction)
  | _, [] => .ok []
  | number, line :: rest =>
    match readLine line with
    | .error fault => .error ⟨fault, number⟩
    | .ok found => (readLines (number + 1) rest).map (found.toList ++ ·)

/-- A buffer of instructions that uses the memory its code shows. -/
def load (instructions : List Instruction) : Buffer :=
  let buffer := Buffer.ofInstructions instructions
  { buffer with nextAddress := buffer.requiredMemory }

def read (text : String) : Except ObjectError Buffer :=
  (readLines 1 (Text.objectLines text.toList)).map load

end ObjectText

end Pascalet
