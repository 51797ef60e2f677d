import Pascalet.Machine.Basic
import Pascalet.Proofs.Core.Basic

namespace Pascalet.Core

/-- What a program works on: its cells, the words that it has not read yet, and the lines that it has
printed. -/
@[ext]
structure State where
  cells : Nat → Binary64
  words : List (List Char)
  printed : List String

namespace State

def initial (input : String) : State :=
  { cells := fun _ => Binary64.zero, words := Text.words input.toList, printed := [] }

def set (state : State) (address : Nat) (value : Binary64) : State :=
  { state with cells := fun cell => if cell = address then value else state.cells cell }

def pass (state : State) (firstCell : Nat) (values : List Binary64) : State :=
  { state with cells := fun cell =>
      if firstCell ≤ cell then values[cell - firstCell]?.getD (state.cells cell)
      else state.cells cell }

def print (state : State) (value : Binary64) : State :=
  { state with printed := state.printed ++ [value.printed] }

/-- The next number of the input. A word that is no number is taken too. -/
def takeNumber (state : State) : Except Fault Binary64 × State :=
  match state.words with
  | [] => (.error .noInputLeft, state)
  | word :: rest =>
    match Numeral.real? word with
    | some value => (.ok value, { state with words := rest })
    | none => (.error (.invalidInput (String.ofList word)), { state with words := rest })

end State

def Expression.value (cells : Nat → Binary64) : Expression → Binary64
  | .cell address => cells address
  | .constant text => (Numeral.real? text.toList).getD Binary64.zero
  | .negate operand => -(operand.value cells)
  | .binary operator left right => operator.apply (left.value cells) (right.value cells)

def Condition.holds (cells : Nat → Binary64) (condition : Condition) : Bool :=
  condition.relation.holds (condition.left.value cells) (condition.right.value cells)

inductive Outcome where
  | finished (state : State)
  | failed (fault : Fault) (state : State)

/-- The execution of a command, by its structure. -/
inductive Exec (procedures : List Procedure) : Command → State → Outcome → Prop where
  | skip (state : State) : Exec procedures .skip state (.finished state)
  | sequence {first second : Command} {state between : State} {outcome : Outcome}
    (begun : Exec procedures first state (.finished between))
    (ended : Exec procedures second between outcome) :
    Exec procedures (.sequence first second) state outcome
  | sequenceFails {first second : Command} {state final : State} {fault : Fault}
    (failed : Exec procedures first state (.failed fault final)) :
    Exec procedures (.sequence first second) state (.failed fault final)
  | read {address : Nat} {state after : State} {value : Binary64}
    (taken : state.takeNumber = (.ok value, after)) :
    Exec procedures (.read address) state (.finished (after.set address value))
  | readFails {address : Nat} {state final : State} {fault : Fault}
    (failed : state.takeNumber = (.error fault, final)) :
    Exec procedures (.read address) state (.failed fault final)
  | write (value : Expression) (state : State) :
    Exec procedures (.write value) state (.finished (state.print (value.value state.cells)))
  | assign (address : Nat) (value : Expression) (state : State) :
    Exec procedures (.assign address value) state
      (.finished (state.set address (value.value state.cells)))
  | choose {condition : Condition} {body other : Command} {state : State} {outcome : Outcome}
    (holds : condition.holds state.cells = true) (chosen : Exec procedures body state outcome) :
    Exec procedures (.choose condition body other) state outcome
  | chooseOther {condition : Condition} {body other : Command} {state : State} {outcome : Outcome}
    (fails : condition.holds state.cells = false) (chosen : Exec procedures other state outcome) :
    Exec procedures (.choose condition body other) state outcome
  | loop {condition : Condition} {body : Command} {state between : State} {outcome : Outcome}
    (holds : condition.holds state.cells = true)
    (once : Exec procedures body state (.finished between))
    (again : Exec procedures (.loop condition body) between outcome) :
    Exec procedures (.loop condition body) state outcome
  | loopFails {condition : Condition} {body : Command} {state final : State} {fault : Fault}
    (holds : condition.holds state.cells = true)
    (failed : Exec procedures body state (.failed fault final)) :
    Exec procedures (.loop condition body) state (.failed fault final)
  | loopEnds {condition : Condition} {body : Command} {state : State}
    (fails : condition.holds state.cells = false) :
    Exec procedures (.loop condition body) state (.finished state)
  | call {procedure : Nat} {arguments : List Nat} {called : Procedure} {state : State}
    {outcome : Outcome} (found : procedures[procedure]? = some called)
    (performed : Exec procedures called.body
      (state.pass called.firstCell (arguments.map state.cells)) outcome) :
    Exec procedures (.call procedure arguments) state outcome

def Program.Exec (program : Program) (input : String) (outcome : Outcome) : Prop :=
  Core.Exec program.procedures program.body (.initial input) outcome

end Pascalet.Core
