import Pascalet.Code.Buffer

namespace Pascalet

inductive MeasureFault where
  | notCountable (kind : ArgumentKind)
  | notComparable (later earlier : ArgumentKind)
  | notNumber (kind : ArgumentKind)
deriving DecidableEq

namespace Buffer

def reservations (buffer : Buffer) : List Argument :=
  (buffer.instructions.toList.filter (·.opcode = .reserve)).map (·.argument)

def addresses (buffer : Buffer) : List Argument :=
  (buffer.instructions.toList.filter (·.opcode.hasAddress)).map (·.argument)

def reservedCells (buffer : Buffer) : Int :=
  (buffer.reservations.filterMap Argument.integer?).foldr (· + ·) 0

def addressedCells (buffer : Buffer) : Int :=
  (buffer.addresses.filterMap Argument.integer?).max?.getD (-1) + 1

/-- The cells that a program needs: those it sets aside, or those it addresses. -/
def requiredMemory (buffer : Buffer) : Int :=
  max buffer.reservedCells buffer.addressedCells

/-- What is wrong with addresses of these kinds. Integers compare with integers and texts with texts,
absent arguments not even with each other. -/
def addressFault? : List ArgumentKind → Option MeasureFault
  | [] => none
  | first :: rest =>
    match rest.find? fun kind => kind ≠ first || kind = .absent with
    | some later => some (.notComparable later first)
    | none => if first = .integer then none else some (.notNumber first)

def measureFault? (buffer : Buffer) : Option MeasureFault :=
  match (buffer.reservations.map Argument.kind).find? (· ≠ .integer) with
  | some kind => some (.notCountable kind)
  | none => addressFault? (buffer.addresses.map Argument.kind)

def measureMemory (buffer : Buffer) : Except MeasureFault Int :=
  match buffer.measureFault? with
  | some fault => .error fault
  | none => .ok buffer.requiredMemory

end Buffer

end Pascalet
