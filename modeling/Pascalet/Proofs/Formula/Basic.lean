import Pascalet.Proofs.Execution.Block
import Pascalet.Proofs.Machine.Straight
import Pascalet.Symbol.Table
import Pascalet.Token.Basic

namespace Pascalet

inductive Formula where
  | name (name : String)
  | literal (text : String)
  | negation (operand : Formula)
  | operation (operator : Operator) (left right : Formula)
  | comparison (relation : Relation) (left right : Formula)

namespace Formula

/-- The value, if the names have values. That of a comparison is one or zero. -/
def value? (cells : String → Option Binary64) : Formula → Option Binary64
  | .name named => cells named
  | .literal text => Numeral.real? text.toList
  | .negation operand => return -(← operand.value? cells)
  | .operation operator left right =>
    return operator.apply (← left.value? cells) (← right.value? cells)
  | .comparison relation left right =>
    return relation.apply (← left.value? cells) (← right.value? cells)

inductive Level where
  | factor
  | term
  | expression
  | condition

/-- The tokens of a level say a formula. Products are nearer than sums, both group to the left, and a
minus sign belongs to the first factor of a term. -/
inductive Reads : Level → List Token → Formula → Prop where
  | name {token : Token} (named : token.kind = .identifier) :
    Reads .factor [token] (.name token.lexeme)
  | literal {token : Token} (constant : token.kind.isLiteral = true) :
    Reads .factor [token] (.literal token.lexeme)
  | group {left right : Token} {tokens : List Token} {formula : Formula}
    (opened : left.kind = .leftParen) (inner : Reads .expression tokens formula)
    (closed : right.kind = .rightParen) : Reads .factor (left :: (tokens ++ [right])) formula
  | single {tokens : List Token} {formula : Formula} (only : Reads .factor tokens formula) :
    Reads .term tokens formula
  | negated {sign : Token} {tokens : List Token} {operand : Formula}
    (minus : sign.kind = .operator .subtract) (first : Reads .factor tokens operand) :
    Reads .term (sign :: tokens) (.negation operand)
  | product {sign : Token} {front back : List Token} {operator : Operator} {left right : Formula}
    (first : Reads .term front left) (signed : sign.kind = .operator operator)
    (multiplies : operator = .multiply ∨ operator = .divide) (last : Reads .factor back right) :
    Reads .term (front ++ sign :: back) (.operation operator left right)
  | alone {tokens : List Token} {formula : Formula} (only : Reads .term tokens formula) :
    Reads .expression tokens formula
  | sum {sign : Token} {front back : List Token} {operator : Operator} {left right : Formula}
    (first : Reads .expression front left) (signed : sign.kind = .operator operator)
    (adds : operator = .add ∨ operator = .subtract) (last : Reads .term back right) :
    Reads .expression (front ++ sign :: back) (.operation operator left right)
  | comparison {sign : Token} {front back : List Token} {relation : Relation} {left right : Formula}
    (first : Reads .expression front left) (signed : sign.kind = .relation relation)
    (last : Reads .expression back right) :
    Reads .condition (front ++ sign :: back) (.comparison relation left right)

/-- The code of a formula: operands in the order of the text, and what is done with them behind. -/
inductive Codes (table : SymbolTable) : Formula → List Instruction → Prop where
  | name {name : String} {symbol : Symbol} (found : table.lookup? name = some symbol)
    (isCell : symbol.isProcedure = false) :
    Codes table (.name name) [⟨.load, .integer symbol.address⟩]
  | literal {text : String} (decimal : Numeral.IsDecimal text.toList) :
    Codes table (.literal text) [⟨.constant, .text text⟩]
  | negation {operand : Formula} {code : List Instruction} (only : Codes table operand code) :
    Codes table (.negation operand) (code ++ [⟨.negate, .absent⟩])
  | operation {operator : Operator} {left right : Formula} {front back : List Instruction}
    (first : Codes table left front) (last : Codes table right back) :
    Codes table (.operation operator left right)
      (front ++ back ++ [⟨.arithmetic operator, .absent⟩])
  | comparison {relation : Relation} {left right : Formula} {front back : List Instruction}
    (first : Codes table left front) (last : Codes table right back) :
    Codes table (.comparison relation left right)
      (front ++ back ++ [⟨.compare relation, .absent⟩])

end Formula

/-- The memory has every cell that the code has the address of. -/
def Memory.Holds (memory : Memory) (code : List Instruction) : Prop :=
  ∀ (opcode : Opcode) (address : Int), ⟨opcode, .integer address⟩ ∈ code →
    opcode.hasAddress = true → 0 ≤ address ∧ address < memory.size

def SymbolTable.valueIn (table : SymbolTable) (memory : Memory) (name : String) : Option Binary64 := do
  let symbol ← table.lookup? name
  if symbol.isProcedure then none else some (memory.get symbol.address.toNat)

theorem Memory.Holds.append {memory : Memory} {front back : List Instruction}
    (holds : memory.Holds (front ++ back)) : memory.Holds front ∧ memory.Holds back :=
  ⟨fun opcode address member => holds opcode address (List.mem_append_left _ member),
    fun opcode address member => holds opcode address (List.mem_append_right _ member)⟩

namespace Formula

open Machine (Straight)

/-- The code computes the value in this memory, wherever it stands. -/
def Computes (code : List Instruction) (memory : Memory) (value : Binary64) : Prop :=
  ∀ machine : Machine, machine.memory = memory → machine.code.Has machine.pc code →
    Straight code.length machine (machine.behind code.length (value :: machine.stack))

theorem Computes.operands {front back : List Instruction} {last : Instruction} {memory : Memory}
    {left right result : Binary64} (first : Computes front memory left)
    (second : Computes back memory right)
    (stepped : ∀ (machine : Machine) (rest : List Binary64),
      machine.code.instructions[machine.pc]? = some last → machine.stack = right :: left :: rest →
      machine.step = .ok () (machine.behind 1 (result :: rest))) :
    Computes (front ++ back ++ [last]) memory result := by
  rintro machine rfl has
  have whole := has.append
  have parts := whole.1.append
  have begun := first machine rfl parts.1
  have rest := second (machine.behind front.length (left :: machine.stack)) rfl parts.2
  rw [Machine.behind_behind] at rest
  have here := whole.2.cons.1
  rw [List.length_append] at here
  rw [List.length_append, List.length_append]
  exact (begun.trans rest).snoc (stepped _ _ here rfl)

/-- The code of a formula computes its value. -/
theorem Codes.computes {table : SymbolTable} {memory : Memory} {formula : Formula}
    {code : List Instruction} (codes : Codes table formula code) (holds : memory.Holds code) :
    ∃ value, formula.value? (table.valueIn memory) = some value ∧ Computes code memory value := by
  induction codes with
  | @name name symbol found isCell =>
    obtain ⟨natural, inside⟩ := holds _ _ (List.mem_singleton_self _) rfl
    obtain ⟨address, cell⟩ := Int.eq_ofNat_of_zero_le natural
    rw [cell] at inside
    refine ⟨memory.get address, by simp [value?, SymbolTable.valueIn, found, isCell, cell], ?_⟩
    rintro machine rfl has
    rw [cell] at has
    exact .one (Machine.step_load (.inl rfl) has.cons.1 (Int.ofNat_lt.mp inside)) rfl
  | literal decimal =>
    obtain ⟨value, number⟩ := Option.isSome_iff_exists.mp (Numeral.real?_isSome decimal)
    refine ⟨value, number, ?_⟩
    rintro machine rfl has
    exact .one (Machine.step_constant has.cons.1 number) rfl
  | negation only ih =>
    obtain ⟨value, known, computed⟩ := ih holds.append.1
    refine ⟨-value, by simp [value?, known], ?_⟩
    rintro machine rfl has
    rw [List.length_append]
    have last := has.append.2.cons.1
    exact (computed machine rfl has.append.1).snoc (Machine.step_negate last rfl)
  | @operation operator left right front back first last ihLeft ihRight =>
    obtain ⟨leftValue, leftKnown, leftComputed⟩ := ihLeft holds.append.1.append.1
    obtain ⟨rightValue, rightKnown, rightComputed⟩ := ihRight holds.append.1.append.2
    refine ⟨operator.apply leftValue rightValue, by simp [value?, leftKnown, rightKnown], ?_⟩
    exact leftComputed.operands rightComputed fun _ _ => Machine.step_arithmetic
  | @comparison relation left right front back first last ihLeft ihRight =>
    obtain ⟨leftValue, leftKnown, leftComputed⟩ := ihLeft holds.append.1.append.1
    obtain ⟨rightValue, rightKnown, rightComputed⟩ := ihRight holds.append.1.append.2
    refine ⟨relation.apply leftValue rightValue, by simp [value?, leftKnown, rightKnown], ?_⟩
    exact leftComputed.operands rightComputed fun _ _ => Machine.step_compare

end Formula

end Pascalet
