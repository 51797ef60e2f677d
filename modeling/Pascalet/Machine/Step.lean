import Pascalet.Machine.Basic

namespace Pascalet.Machine

abbrev Action := EStateM MachineError Machine

def fail {α : Type} (fault : Fault) : Action α := do
  throw (.execution fault (← get).pc)

def push (value : Binary64) : Action Unit :=
  modify fun machine => { machine with stack := value :: machine.stack }

def pop : Action Binary64 := do
  match (← get).stack with
  | value :: rest =>
    modify fun machine => { machine with stack := rest }
    pure value
  | [] => fail .operandUnderflow

/-- Takes the next number from the input. A word that is no number is taken too. -/
def readNumber : Action Binary64 := do
  let (word, input) := (← get).input.take
  modify fun machine => { machine with input }
  match word with
  | none => fail .noInputLeft
  | some text =>
    match Numeral.real? text with
    | some value => pure value
    | none => fail (.invalidInput (String.ofList text))

def addressOf (argument : Argument) : Action Nat := do
  match argument with
  | .integer value =>
    if 0 ≤ value ∧ value < (← get).memory.size then pure value.toNat
    else fail (.addressOutOfRange argument)
  | _ => fail (.addressOutOfRange argument)

def targetOf (argument : Argument) : Action Nat := do
  match argument with
  | .integer value =>
    if 0 ≤ value ∧ value ≤ (← get).code.size then pure value.toNat
    else fail (.targetOutOfRange argument)
  | _ => fail (.targetOutOfRange argument)

def cellCountOf (argument : Argument) : Action Nat := do
  match argument with
  | .integer value =>
    if 0 ≤ value then pure value.toNat else fail (.invalidCellCount argument)
  | _ => fail (.invalidCellCount argument)

def constantOf (argument : Argument) : Action Binary64 := do
  match argument with
  | .integer value => (Binary64.ofInt? value).elim (throw .constantTooLarge) pure
  | .text text =>
    match Numeral.real? text.toList with
    | some constant => pure constant
    | none => fail (.invalidConstant argument)
  | .absent => fail (.invalidConstant argument)

def loadCell (address : Nat) : Action Unit := do
  push ((← get).memory.get address)

def storeCell (address : Nat) (value : Binary64) : Action Unit :=
  modify fun machine => { machine with memory := machine.memory.set address value }

inductive Move where
  | next
  | jump (target : Nat)
  | halt

/-- Does the work of an instruction. Arguments are checked before operands are taken, and the operand
on top of the stack is the right one. -/
def perform (instruction : Instruction) : Action Move := do
  let argument := instruction.argument
  match instruction.opcode with
  | .start | .reserve => pure .next
  | .stop => pure .halt
  | .constant =>
    push (← constantOf argument)
    pure .next
  | .load | .pass =>
    loadCell (← addressOf argument)
    pure .next
  | .store =>
    let address ← addressOf argument
    storeCell address (← pop)
    pure .next
  | .arithmetic operator =>
    let right ← pop
    let left ← pop
    push (operator.apply left right)
    pure .next
  | .negate =>
    push (-(← pop))
    pure .next
  | .compare relation =>
    let right ← pop
    let left ← pop
    push (relation.apply left right)
    pure .next
  | .read =>
    push (← readNumber)
    pure .next
  | .write =>
    let value ← pop
    modify fun machine => { machine with output := machine.output.push value.printed }
    pure .next
  | .jumpIfZero =>
    let target ← targetOf argument
    if (← pop).isZero then pure (.jump target) else pure .next
  | .jump | .call => pure (.jump (← targetOf argument))
  | .pushReturn =>
    let target ← targetOf argument
    modify fun machine => { machine with returns := target :: machine.returns }
    pure .next
  | .ret =>
    match (← get).returns with
    | target :: rest =>
      modify fun machine => { machine with returns := rest }
      pure (.jump target)
    | [] => fail .emptyReturnStack
  | .release =>
    let count ← cellCountOf argument
    modify fun machine => { machine with released := machine.released + count }
    pure .next
  | .other name => fail (.unknownOpcode name)

def follow : Move → Action Unit
  | .next => modify fun machine => { machine with pc := machine.pc + 1 }
  | .jump target => modify fun machine => { machine with pc := target }
  | .halt => modify fun machine => { machine with status := .halted }

/-- Executes the instruction at the program counter, whatever the status. Behind the last instruction
the machine halts, and that counts as no step. -/
def step : Action Unit := do
  let machine ← get
  match machine.code.instructions[machine.pc]? with
  | none => follow .halt
  | some instruction =>
    modify fun machine => { machine with steps := machine.steps + 1 }
    follow (← perform instruction)

end Pascalet.Machine
