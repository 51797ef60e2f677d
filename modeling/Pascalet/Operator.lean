import Pascalet.Binary64.Arithmetic

namespace Pascalet

inductive Operator where
  | add | subtract | multiply | divide
deriving DecidableEq, Repr

def Operator.apply : Operator → Binary64 → Binary64 → Binary64
  | add, a, b => a + b
  | subtract, a, b => a - b
  | multiply, a, b => a * b
  | divide, a, b => a / b

inductive Relation where
  | equal | notEqual | atLeast | atMost | greater | less
deriving DecidableEq, Repr

/-- Only `notEqual` holds of numbers without an order. -/
def Relation.holds (relation : Relation) (a b : Binary64) : Bool :=
  let order := a.compare? b
  match relation with
  | equal => order == some .eq
  | notEqual => order != some .eq
  | atLeast => order == some .gt || order == some .eq
  | atMost => order == some .lt || order == some .eq
  | greater => order == some .gt
  | less => order == some .lt

def Relation.apply (relation : Relation) (a b : Binary64) : Binary64 :=
  if relation.holds a b then Binary64.one else Binary64.zero

end Pascalet
