import Pascalet.Code.Instruction
import Pascalet.Text.Quoted

namespace Pascalet

structure Buffer where
  instructions : Array Instruction := #[]
  /-- The next free memory cell, which is also the number of cells in use. -/
  nextAddress : Int := 0
  /-- The indices of jumps without a target, in ascending order. -/
  pending : List Nat := []
deriving DecidableEq

inductive JumpFault where
  | notPending (index : Int)
  | unpatched (indices : List Nat)
deriving DecidableEq

def JumpFault.message : JumpFault → String
  | notPending index => "Instruction " ++ toString index ++ " is not an unpatched placeholder"
  | unpatched indices =>
    "Unpatched jumps at [" ++ ", ".intercalate (indices.map toString) ++ "]"

inductive IndexFault where
  | outOfRange
  | tooWide
deriving DecidableEq

namespace Buffer

def placeholder : Int := -1

def ofInstructions (instructions : List Instruction) : Buffer :=
  { instructions := instructions.toArray }

def size (buffer : Buffer) : Nat :=
  buffer.instructions.size

def nextIndex (buffer : Buffer) : Nat :=
  buffer.size

def allocate (buffer : Buffer) : Buffer :=
  { buffer with nextAddress := buffer.nextAddress + 1 }

def emit (buffer : Buffer) (opcode : Opcode) (argument : Argument := .absent) : Buffer :=
  { buffer with instructions := buffer.instructions.push ⟨opcode, argument⟩ }

def emitAt (buffer : Buffer) (opcode : Opcode) (argument : Int) : Buffer :=
  buffer.emit opcode (.integer argument)

def emitJump (buffer : Buffer) (opcode : Opcode) : Buffer :=
  { buffer.emitAt opcode placeholder with pending := buffer.pending ++ [buffer.nextIndex] }

def patch (buffer : Buffer) (index target : Int) : Except JumpFault Buffer :=
  if 0 ≤ index ∧ index.toNat ∈ buffer.pending then
    .ok { buffer with
      instructions :=
        buffer.instructions.modify index.toNat fun jump => { jump with argument := .integer target }
      pending := buffer.pending.erase index.toNat }
  else .error (.notPending index)

def patchHere (buffer : Buffer) (index : Nat) : Except JumpFault Buffer :=
  buffer.patch index buffer.nextIndex

/-- The instruction at an index; a negative index counts from the end. -/
def at? (buffer : Buffer) (index : Int) : Option Instruction :=
  match index with
  | .ofNat fromStart => buffer.instructions[fromStart]?
  | .negSucc fromEnd =>
    if fromEnd < buffer.size then buffer.instructions[buffer.size - (fromEnd + 1)]? else none

def isIndex (index : Int) : Bool :=
  -9223372036854775808 ≤ index && index < 9223372036854775808

def get (buffer : Buffer) (index : Int) : Except IndexFault Instruction :=
  if isIndex index then
    match buffer.at? index with
    | some instruction => .ok instruction
    | none => .error .outOfRange
  else .error .tooWide

def listingLine (index : Nat) (instruction : Instruction) : String :=
  "  " ++ Text.padLeft 4 (toString index) ++ ": " ++
    match instruction.argument.plain? with
    | some argument => Text.padRight 8 instruction.opcode.mnemonic ++ " " ++ argument
    | none => instruction.opcode.mnemonic

def listing (buffer : Buffer) : String :=
  "\n".intercalate ("=== Generated Code ===" ::
    buffer.instructions.toList.mapIdx listingLine)

end Buffer

end Pascalet
