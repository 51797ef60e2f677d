import Pascalet.Code.Buffer

namespace Pascalet.Core

inductive Expression where
  | cell (address : Nat)
  | constant (text : String)
  | negate (operand : Expression)
  | binary (operator : Operator) (left right : Expression)

structure Condition where
  relation : Relation
  left : Expression
  right : Expression

inductive Command where
  | skip
  | sequence (first second : Command)
  | read (address : Nat)
  | write (value : Expression)
  | assign (address : Nat) (value : Expression)
  | choose (condition : Condition) (body other : Command)
  | loop (condition : Condition) (body : Command)
  | call (procedure : Nat) (arguments : List Nat)

def Command.inOrder : List Command → Command
  | [] => .skip
  | command :: rest => .sequence command (inOrder rest)

/-- The parameters have the cells from `firstCell` on. -/
structure Procedure where
  firstCell : Nat
  parameterCount : Nat
  localCount : Nat
  body : Command

inductive Item where
  | vars (count : Nat)
  | procedure (declared : Procedure)

structure Program where
  items : List Item
  body : Command

def procedures : List Item → List Procedure
  | [] => []
  | .vars _ :: rest => procedures rest
  | .procedure declared :: rest => declared :: procedures rest

def Program.procedures (program : Program) : List Procedure :=
  Core.procedures program.items

def Expression.code : Expression → List Instruction
  | .cell address => [⟨.load, .integer address⟩]
  | .constant text => [⟨.constant, .text text⟩]
  | .negate operand => operand.code ++ [⟨.negate, .absent⟩]
  | .binary operator left right => left.code ++ right.code ++ [⟨.arithmetic operator, .absent⟩]

def Condition.code (condition : Condition) : List Instruction :=
  condition.left.code ++ condition.right.code ++ [⟨.compare condition.relation, .absent⟩]

def Condition.size (condition : Condition) : Nat :=
  condition.code.length

def Command.size : Command → Nat
  | .skip => 0
  | .sequence first second => first.size + second.size
  | .read _ => 2
  | .write value => value.code.length + 1
  | .assign _ value => value.code.length + 1
  | .choose condition body other => condition.size + 1 + body.size + 1 + other.size
  | .loop condition body => condition.size + 1 + body.size + 1
  | .call _ arguments => arguments.length + 2

/-- The code of a command at `start`, when the procedures begin at `entries`. -/
def Command.code (entries : List Nat) : (start : Nat) → Command → List Instruction
  | _, .skip => []
  | start, .sequence first second =>
    first.code entries start ++ second.code entries (start + first.size)
  | _, .read address => [⟨.read, .absent⟩, ⟨.store, .integer address⟩]
  | _, .write value => value.code ++ [⟨.write, .absent⟩]
  | _, .assign address value => value.code ++ [⟨.store, .integer address⟩]
  | start, .choose condition body other =>
    let inner := start + condition.size + 1
    let alternative := inner + body.size + 1
    condition.code ++ ⟨.jumpIfZero, .integer alternative⟩ :: body.code entries inner ++
      ⟨.jump, .integer (alternative + other.size : Nat)⟩ :: other.code entries alternative
  | start, .loop condition body =>
    let inner := start + condition.size + 1
    condition.code ++ ⟨.jumpIfZero, .integer (inner + body.size + 1 : Nat)⟩ ::
      body.code entries inner ++ [⟨.jump, .integer start⟩]
  | start, .call procedure arguments =>
    ⟨.pushReturn, .integer (start + arguments.length + 2 : Nat)⟩ ::
      arguments.map (fun address => ⟨.pass, .integer address⟩) ++
      [⟨.call, .integer (entries.getD procedure 0)⟩]

def storeAll (firstCell count : Nat) : List Instruction :=
  (List.range' firstCell count).reverse.map fun (address : Nat) => ⟨.store, .integer address⟩

def reserveAll (count : Nat) : List Instruction :=
  List.replicate count ⟨.reserve, .integer 1⟩

def Procedure.size (procedure : Procedure) : Nat :=
  procedure.parameterCount + procedure.localCount + procedure.body.size + 2

def Procedure.code (entries : List Nat) (start : Nat) (procedure : Procedure) : List Instruction :=
  storeAll procedure.firstCell procedure.parameterCount ++ reserveAll procedure.localCount ++
    procedure.body.code entries (start + procedure.parameterCount + procedure.localCount) ++
    [⟨.release, .integer (procedure.parameterCount + procedure.localCount : Nat)⟩, ⟨.ret, .absent⟩]

def groupSize : List Item → Nat
  | .procedure declared :: rest => 1 + declared.size + groupSize rest
  | _ => 0

def itemsSize : List Item → Nat
  | [] => 0
  | .vars count :: rest => count + itemsSize rest
  | .procedure declared :: rest => 1 + declared.size + itemsSize rest

theorem groupSize_le_itemsSize (items : List Item) : groupSize items ≤ itemsSize items := by
  induction items with
  | nil => exact Nat.le_refl _
  | cons item rest ih =>
    cases item with
    | vars count => exact Nat.zero_le _
    | procedure declared => exact Nat.add_le_add_left ih _

/-- The code of declarations behind procedures that begin at `entries`. A jump to the end of the group
stands in front of each procedure. -/
def itemsCode (entries : List Nat) (start : Nat) : List Item → List Instruction
  | [] => []
  | .vars count :: rest => reserveAll count ++ itemsCode entries (start + count) rest
  | .procedure declared :: rest =>
    ⟨.jump, .integer (start + groupSize (.procedure declared :: rest) : Nat)⟩ ::
      declared.code (entries ++ [start + 1]) (start + 1) ++
      itemsCode (entries ++ [start + 1]) (start + 1 + declared.size) rest

def itemsEntries (entries : List Nat) (start : Nat) : List Item → List Nat
  | [] => entries
  | .vars count :: rest => itemsEntries entries (start + count) rest
  | .procedure declared :: rest =>
    itemsEntries (entries ++ [start + 1]) (start + 1 + declared.size) rest

def Program.entries (start : Nat) (program : Program) : List Nat :=
  itemsEntries [] (start + 1) program.items

def Program.bodyStart (start : Nat) (program : Program) : Nat :=
  start + 1 + itemsSize program.items

def Program.code (start : Nat) (program : Program) : List Instruction :=
  ⟨.start, .absent⟩ :: itemsCode [] (start + 1) program.items ++
    program.body.code (program.entries start) (program.bodyStart start) ++ [⟨.stop, .absent⟩]

@[simp]
theorem length_storeAll (firstCell count : Nat) : (storeAll firstCell count).length = count := by
  simp [storeAll]

@[simp]
theorem length_reserveAll (count : Nat) : (reserveAll count).length = count := by
  simp [reserveAll]

@[simp]
theorem Command.length_code (entries : List Nat) (start : Nat) (command : Command) :
    (command.code entries start).length = command.size := by
  induction command generalizing start with
  | skip => rfl
  | sequence first second firstIh secondIh => simp [code, size, firstIh, secondIh]
  | read address => rfl
  | write value => simp [code, size]
  | assign address value => simp [code, size]
  | choose condition body other bodyIh otherIh =>
    simp only [code, size, List.length_append, List.length_cons, bodyIh, otherIh, Condition.size]
    omega
  | loop condition body bodyIh =>
    simp only [code, size, List.length_append, List.length_cons, List.length_nil, bodyIh,
      Condition.size]
    omega
  | call procedure arguments => simp [code, size]

@[simp]
theorem Procedure.length_code (entries : List Nat) (start : Nat) (procedure : Procedure) :
    (procedure.code entries start).length = procedure.size := by
  simp [code, size, Nat.add_assoc]

@[simp]
theorem length_itemsCode (entries : List Nat) (start : Nat) (items : List Item) :
    (itemsCode entries start items).length = itemsSize items := by
  induction items generalizing entries start with
  | nil => rfl
  | cons item rest ih =>
    cases item with
    | vars count => simp [itemsCode, itemsSize, ih]
    | procedure declared =>
      simp only [itemsCode, itemsSize, List.length_append, List.length_cons,
        Procedure.length_code, ih]
      omega

@[simp]
theorem Program.length_code (start : Nat) (program : Program) :
    (program.code start).length = itemsSize program.items + program.body.size + 2 := by
  simp only [code, List.length_append, List.length_cons, List.length_nil, length_itemsCode,
    Command.length_code]
  omega

theorem itemsEntries_append (entries : List Nat) (start : Nat) (front back : List Item) :
    itemsEntries entries start (front ++ back) =
      itemsEntries (itemsEntries entries start front) (start + itemsSize front) back := by
  induction front generalizing entries start with
  | nil => rfl
  | cons item rest ih =>
    cases item with
    | vars count =>
      rw [List.cons_append, itemsEntries, ih, itemsEntries, itemsSize, Nat.add_assoc]
    | procedure declared =>
      rw [List.cons_append, itemsEntries, ih, itemsEntries, itemsSize, Nat.add_assoc, Nat.add_assoc,
        Nat.add_assoc]

theorem itemsEntries_eq_append (entries : List Nat) (start : Nat) (items : List Item) :
    ∃ others, itemsEntries entries start items = entries ++ others := by
  induction items generalizing entries start with
  | nil => exact ⟨[], (List.append_nil entries).symm⟩
  | cons item rest ih =>
    cases item with
    | vars count => exact ih entries (start + count)
    | procedure declared =>
      obtain ⟨others, same⟩ := ih (entries ++ [start + 1]) (start + 1 + declared.size)
      exact ⟨(start + 1) :: others, by rw [itemsEntries, same, List.append_assoc]; rfl⟩

theorem length_itemsEntries (entries : List Nat) (start : Nat) (items : List Item) :
    (itemsEntries entries start items).length = entries.length + (Core.procedures items).length := by
  induction items generalizing entries start with
  | nil => rfl
  | cons item rest ih =>
    cases item with
    | vars count => rw [itemsEntries, ih, procedures]
    | procedure declared =>
      rw [itemsEntries, ih, procedures, List.length_append, List.length_singleton, List.length_cons]
      omega

/-- The opcodes that commands are made of. The others mark where programs, procedures and variables
begin and end. -/
def isInner : Opcode → Bool
  | .start | .stop | .reserve | .release | .ret | .other _ => false
  | _ => true

def AllInner (code : List Instruction) : Prop :=
  ∀ instruction ∈ code, isInner instruction.opcode = true

@[simp]
theorem allInner_nil : AllInner [] := by
  simp [AllInner]

@[simp]
theorem allInner_cons {first : Instruction} {rest : List Instruction} :
    AllInner (first :: rest) ↔ isInner first.opcode = true ∧ AllInner rest :=
  List.forall_mem_cons

@[simp]
theorem allInner_append {front back : List Instruction} :
    AllInner (front ++ back) ↔ AllInner front ∧ AllInner back :=
  List.forall_mem_append

theorem Expression.allInner_code (expression : Expression) : AllInner expression.code := by
  induction expression with
  | cell address => simp [code, isInner]
  | constant text => simp [code, isInner]
  | negate operand ih => simpa [code, isInner] using ih
  | binary operator left right leftIh rightIh => simpa [code, isInner] using ⟨leftIh, rightIh⟩

theorem Condition.allInner_code (condition : Condition) : AllInner condition.code := by
  simpa [code, isInner] using ⟨condition.left.allInner_code, condition.right.allInner_code⟩

theorem Command.allInner_code (entries : List Nat) (start : Nat) (command : Command) :
    AllInner (command.code entries start) := by
  induction command generalizing start with
  | skip => simp [code]
  | sequence first second firstIh secondIh => simpa [code] using ⟨firstIh _, secondIh _⟩
  | read address => simp [code, isInner]
  | write value => simpa [code, isInner] using value.allInner_code
  | assign address value => simpa [code, isInner] using value.allInner_code
  | choose condition body other bodyIh otherIh =>
    simp only [code, allInner_append, allInner_cons]
    exact ⟨⟨condition.allInner_code, rfl, bodyIh _⟩, rfl, otherIh _⟩
  | loop condition body ih =>
    simp only [code, allInner_append, allInner_cons, allInner_nil, and_true]
    exact ⟨⟨condition.allInner_code, rfl, ih _⟩, rfl⟩
  | call procedure arguments =>
    simp only [code, allInner_append, allInner_cons, allInner_nil, and_true]
    refine ⟨⟨rfl, ?_⟩, rfl⟩
    rw [AllInner, List.forall_mem_map]
    exact fun _ _ => rfl

theorem allInner_storeAll (firstCell count : Nat) : AllInner (storeAll firstCell count) := by
  rw [AllInner, storeAll, List.forall_mem_map]
  exact fun _ _ => rfl

end Pascalet.Core
