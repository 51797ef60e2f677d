import Pascalet.Machine.Step

namespace Pascalet.Machine

inductive Progress where
  | unfinished (machine : Machine)
  | stopped (machine : Machine) (error : Option MachineError)

def markFailed (machine : Machine) : MachineError → Machine
  | .execution _ _ => { machine with status := .failed }
  | .constantTooLarge => machine

def resume : (limit : Nat) → Machine → Progress
  | 0, machine => .unfinished machine
  | limit + 1, machine =>
    if machine.status = .running then
      match machine.step with
      | .ok _ stepped => resume limit stepped
      | .error error stopped => .stopped (stopped.markFailed error) (some error)
    else .stopped machine none

def run (limit : Nat) (machine : Machine) : Progress :=
  resume limit { machine with status := .running }

def stepTimes : Nat → Action Unit
  | 0 => pure ()
  | count + 1 => do
    step
    stepTimes count

/-- Does the next instruction divide finite numbers whose quotient is too large for one? -/
def overflowsNow (machine : Machine) : Bool :=
  match machine.code.instructions[machine.pc]?, machine.stack with
  | some ⟨.arithmetic .divide, _⟩, .finite sign divisor :: .finite side dividend :: _ =>
    divisor.units ≠ 0 && .finite side dividend / .finite sign divisor = Binary64.infinite (side ^^ sign)
  | _, _ => false

def overflowsWithin : (limit : Nat) → Machine → Bool
  | 0, _ => false
  | limit + 1, machine =>
    machine.status = .running && (machine.overflowsNow || match machine.step with
      | .ok _ stepped => overflowsWithin limit stepped
      | .error _ _ => false)

def overflows (limit : Nat) (machine : Machine) : Bool :=
  overflowsWithin limit { machine with status := .running }

end Pascalet.Machine
