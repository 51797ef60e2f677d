import Pascalet.Proofs.Core.Valid

namespace Pascalet

def Instruction.Within (allowed : Nat → Prop) (instruction : Instruction) : Prop :=
  ∀ cell : Nat, instruction.opcode.hasAddress = true → instruction.argument = .integer cell →
    allowed cell

namespace Instruction

variable {allowed : Nat → Prop}

theorem within_address {opcode : Opcode} {cell : Nat} (inside : allowed cell) :
    Within allowed ⟨opcode, .integer cell⟩ := by
  intro other _ same
  obtain rfl : cell = other := Int.ofNat_inj.mp (Argument.integer.inj same)
  exact inside

theorem within_of_not_hasAddress {opcode : Opcode} {argument : Argument}
    (other : opcode.hasAddress = false) : Within allowed ⟨opcode, argument⟩ := by
  intro cell addressed
  have contradiction := other.symm.trans addressed
  cases contradiction

def AllWithin (allowed : Nat → Prop) (code : List Instruction) : Prop :=
  ∀ instruction ∈ code, instruction.Within allowed

@[simp]
theorem allWithin_nil : AllWithin allowed [] := by
  simp [AllWithin]

@[simp]
theorem allWithin_cons {first : Instruction} {rest : List Instruction} :
    AllWithin allowed (first :: rest) ↔ first.Within allowed ∧ AllWithin allowed rest :=
  List.forall_mem_cons

@[simp]
theorem allWithin_append {front back : List Instruction} :
    AllWithin allowed (front ++ back) ↔ AllWithin allowed front ∧ AllWithin allowed back :=
  List.forall_mem_append

end Instruction

namespace Core

open Instruction

variable {allowed : Nat → Prop}

def Expression.Within (allowed : Nat → Prop) : Expression → Prop
  | .cell address => allowed address
  | .constant _ => True
  | .negate operand => operand.Within allowed
  | .binary _ left right => left.Within allowed ∧ right.Within allowed

def Condition.Within (allowed : Nat → Prop) (condition : Condition) : Prop :=
  condition.left.Within allowed ∧ condition.right.Within allowed

def Command.Within (allowed : Nat → Prop) : Command → Prop
  | .skip => True
  | .sequence first second => first.Within allowed ∧ second.Within allowed
  | .read address => allowed address
  | .write value => value.Within allowed
  | .assign address value => allowed address ∧ value.Within allowed
  | .choose condition body other =>
    condition.Within allowed ∧ body.Within allowed ∧ other.Within allowed
  | .loop condition body => condition.Within allowed ∧ body.Within allowed
  | .call _ arguments => ∀ address ∈ arguments, allowed address

theorem Command.within_inOrder {commands : List Command}
    (each : ∀ command ∈ commands, command.Within allowed) : (inOrder commands).Within allowed := by
  induction commands with
  | nil => trivial
  | cons command rest ih =>
    rw [List.forall_mem_cons] at each
    exact ⟨each.1, ih each.2⟩

theorem Expression.allWithin_code {expression : Expression} (within : expression.Within allowed) :
    AllWithin allowed expression.code := by
  induction expression with
  | cell address => simpa [code] using within_address within
  | constant text => simpa [code] using within_of_not_hasAddress rfl
  | negate operand ih => simpa [code] using ⟨ih within, within_of_not_hasAddress rfl⟩
  | binary operator left right leftIh rightIh =>
    simpa [code] using ⟨leftIh within.1, rightIh within.2, within_of_not_hasAddress rfl⟩

theorem Condition.allWithin_code {condition : Condition} (within : condition.Within allowed) :
    AllWithin allowed condition.code := by
  simpa [code] using ⟨Expression.allWithin_code within.1, Expression.allWithin_code within.2,
    within_of_not_hasAddress rfl⟩

theorem Command.allWithin_code {command : Command} {entries : List Nat} {start : Nat}
    (within : command.Within allowed) : AllWithin allowed (command.code entries start) := by
  induction command generalizing start with
  | skip => simp [code]
  | sequence first second firstIh secondIh =>
    simpa [code] using ⟨firstIh within.1, secondIh within.2⟩
  | read address => simpa [code] using ⟨within_of_not_hasAddress rfl, within_address within⟩
  | write value =>
    simpa [code] using ⟨Expression.allWithin_code within, within_of_not_hasAddress rfl⟩
  | assign address value =>
    simpa [code] using ⟨Expression.allWithin_code within.2, within_address within.1⟩
  | choose condition body other bodyIh otherIh =>
    simp only [code, allWithin_append, allWithin_cons]
    exact ⟨⟨Condition.allWithin_code within.1, within_of_not_hasAddress rfl, bodyIh within.2.1⟩,
      within_of_not_hasAddress rfl, otherIh within.2.2⟩
  | loop condition body ih =>
    simp only [code, allWithin_append, allWithin_cons, allWithin_nil, and_true]
    exact ⟨⟨Condition.allWithin_code within.1, within_of_not_hasAddress rfl, ih within.2⟩,
      within_of_not_hasAddress rfl⟩
  | call procedure arguments =>
    simp only [code, allWithin_append, allWithin_cons, allWithin_nil, and_true]
    refine ⟨⟨within_of_not_hasAddress rfl, ?_⟩, within_of_not_hasAddress rfl⟩
    rw [AllWithin, List.forall_mem_map]
    exact fun address found => within_address (within address found)

theorem allWithin_reserveAll (count : Nat) : AllWithin allowed (reserveAll count) := by
  intro instruction found
  rw [(List.mem_replicate.mp found).2]
  exact within_of_not_hasAddress rfl

theorem allWithin_storeAll {firstCell count : Nat}
    (inside : ∀ address, firstCell ≤ address → address < firstCell + count → allowed address) :
    AllWithin allowed (storeAll firstCell count) := by
  rw [AllWithin, storeAll, List.forall_mem_map]
  intro address found
  rw [List.mem_reverse, List.mem_range'_1] at found
  exact within_address (inside address found.1 found.2)

structure Procedure.Within (allowed : Nat → Prop) (procedure : Procedure) : Prop where
  parameters : ∀ address, procedure.firstCell ≤ address →
    address < procedure.firstCell + procedure.parameterCount → allowed address
  body : procedure.body.Within allowed

theorem Procedure.allWithin_code {procedure : Procedure} {entries : List Nat} {start : Nat}
    (within : procedure.Within allowed) : AllWithin allowed (procedure.code entries start) := by
  simp only [code, allWithin_append, allWithin_cons, allWithin_nil, and_true]
  exact ⟨⟨⟨allWithin_storeAll within.parameters, allWithin_reserveAll _⟩,
    Command.allWithin_code within.body⟩, within_of_not_hasAddress rfl, within_of_not_hasAddress rfl⟩

theorem allWithin_itemsCode {items : List Item} {entries : List Nat} {start : Nat}
    (within : ∀ procedure ∈ procedures items, procedure.Within allowed) :
    AllWithin allowed (itemsCode entries start items) := by
  induction items generalizing entries start with
  | nil => simp [itemsCode]
  | cons item rest ih =>
    cases item with
    | vars count =>
      simp only [itemsCode, allWithin_append]
      exact ⟨allWithin_reserveAll count, ih within⟩
    | procedure declared =>
      rw [procedures, List.forall_mem_cons] at within
      simp only [itemsCode, allWithin_append, allWithin_cons]
      exact ⟨⟨within_of_not_hasAddress rfl, Procedure.allWithin_code within.1⟩, ih within.2⟩

/-- The code of some declarations in front of others. Only the jumps over procedures depend on what
follows. -/
theorem exists_itemsCode_append {front back : List Item} {entries : List Nat} {start : Nat}
    (within : ∀ procedure ∈ procedures front, procedure.Within allowed) :
    ∃ code, itemsCode entries start (front ++ back) =
        code ++ itemsCode (itemsEntries entries start front) (start + itemsSize front) back ∧
      code.length = itemsSize front ∧ AllWithin allowed code := by
  induction front generalizing entries start with
  | nil => exact ⟨[], rfl, rfl, allWithin_nil⟩
  | cons item rest ih =>
    cases item with
    | vars count =>
      obtain ⟨code, split, length, codeWithin⟩ := @ih entries (start + count) within
      refine ⟨reserveAll count ++ code, ?_, ?_, ?_⟩
      · rw [List.cons_append, itemsCode, split, itemsEntries, itemsSize, List.append_assoc,
          Nat.add_assoc]
      · rw [List.length_append, length_reserveAll, length, itemsSize]
      · exact allWithin_append.mpr ⟨allWithin_reserveAll count, codeWithin⟩
    | procedure declared =>
      rw [procedures, List.forall_mem_cons] at within
      obtain ⟨code, split, length, codeWithin⟩ :=
        @ih (entries ++ [start + 1]) (start + 1 + declared.size) within.2
      refine ⟨⟨.jump, .integer (start + groupSize (.procedure declared :: rest ++ back) : Nat)⟩ ::
        declared.code (entries ++ [start + 1]) (start + 1) ++ code, ?_, ?_, ?_⟩
      · rw [List.cons_append, itemsCode, split, itemsEntries, itemsSize, List.append_assoc,
          ← Nat.add_assoc, ← Nat.add_assoc]
      · rw [List.length_append, List.length_cons, Procedure.length_code, length, itemsSize]
        omega
      · rw [allWithin_append, allWithin_cons]
        exact ⟨⟨within_of_not_hasAddress rfl, Procedure.allWithin_code within.1⟩, codeWithin⟩

theorem Program.exists_code_split {program : Program} {before after : List Item}
    {declared : Procedure} (items : program.items = before ++ .procedure declared :: after)
    (beforeWithin : ∀ procedure ∈ Core.procedures before, procedure.Within allowed)
    (afterWithin : ∀ procedure ∈ Core.procedures after, procedure.Within allowed)
    (bodyWithin : program.body.Within allowed) :
    ∃ front back entries,
      program.code 0 = front ++ declared.code entries front.length ++ back ∧
      (program.entries 0)[(Core.procedures before).length]? = some front.length ∧
      AllWithin allowed front ∧ AllWithin allowed back := by
  obtain ⟨code, split, length, codeWithin⟩ :=
    @exists_itemsCode_append allowed before (.procedure declared :: after) [] 1 beforeWithin
  let start := 1 + itemsSize before
  let known := itemsEntries [] 1 before ++ [start + 1]
  let jump : Instruction :=
    ⟨.jump, .integer (start + groupSize (.procedure declared :: after) : Nat)⟩
  let rest := itemsCode known (start + 1 + declared.size) after
  let body := program.body.code (program.entries 0) (program.bodyStart 0)
  have entry : (⟨.start, .absent⟩ :: code ++ [jump]).length = start + 1 := by
    simp only [List.length_append, List.length_cons, List.length_nil, length, start]
    omega
  refine ⟨⟨.start, .absent⟩ :: code ++ [jump], rest ++ body ++ [⟨.stop, .absent⟩], known, ?_, ?_, ?_, ?_⟩
  · rw [Program.code, items, split, entry]
    simp [itemsCode, jump, rest, body, known, start]
  · obtain ⟨others, more⟩ := itemsEntries_eq_append known (start + 1 + declared.size) after
    have count := length_itemsEntries [] 1 before
    rw [List.length_nil, Nat.zero_add] at count
    rw [Program.entries, items, itemsEntries_append, itemsEntries, more, entry, ← count]
    simp [known, start]
  · simp only [allWithin_append, allWithin_cons, allWithin_nil, and_true]
    exact ⟨⟨within_of_not_hasAddress rfl, codeWithin⟩, within_of_not_hasAddress rfl⟩
  · simp only [allWithin_append, allWithin_cons, allWithin_nil, and_true]
    exact ⟨⟨allWithin_itemsCode afterWithin, Command.allWithin_code bodyWithin⟩,
      within_of_not_hasAddress rfl⟩

theorem index_of_not_within {front middle back : List Instruction} {index : Nat}
    {instruction : Instruction} (frontWithin : AllWithin allowed front)
    (backWithin : AllWithin allowed back)
    (found : (front ++ middle ++ back)[index]? = some instruction)
    (outside : ¬ instruction.Within allowed) :
    front.length ≤ index ∧ index < front.length + middle.length := by
  constructor
  · apply Nat.le_of_not_lt
    intro before
    rw [List.append_assoc, List.getElem?_append_left before] at found
    exact outside (frontWithin instruction (List.mem_of_getElem? found))
  · apply Nat.lt_of_not_le
    intro behind
    rw [List.getElem?_append_right (by simpa using behind)] at found
    exact outside (backWithin instruction (List.mem_of_getElem? found))

end Core

section Table

variable {allowed : Nat → Prop} {table : SymbolTable}

theorem SymbolTable.gives_within_call (cells : ∀ name, Gives (table.cell name) allowed)
    (name : Token) (arguments : List Token) :
    Gives (table.call name arguments) (Core.Command.Within allowed) := by
  refine Gives.bind (fun _ _ => trivial) fun symbol (_ : True) => ?_
  intro found same
  split at same
  · split at same
    · cases same
    · have given := Gives.mapM fun argument (_ : argument ∈ arguments) => cells argument
      exact given.bind (fun addresses known => Gives.ok known.2) found same
  · cases same

namespace Tree

mutual

theorem Factor.gives_within (cells : ∀ name, Gives (table.cell name) allowed) (factor : Factor) :
    Gives (factor.resolve table) (Core.Expression.Within allowed) := by
  cases factor with
  | name name => exact (cells name.token).map fun _ inside => inside
  | literal literal => exact .ok trivial
  | group left inner right => exact inner.gives_within cells

theorem Factors.gives_within (cells : ∀ name, Gives (table.cell name) allowed) (factors : Factors)
    {left : Core.Expression} (leftWithin : left.Within allowed) :
    Gives (factors.resolve table left) (Core.Expression.Within allowed) := by
  cases factors with
  | done => exact .ok leftWithin
  | more sign factor rest =>
    exact (factor.gives_within cells).bind fun right rightWithin =>
      rest.gives_within cells ⟨leftWithin, rightWithin⟩

theorem Term.gives_within (cells : ∀ name, Gives (table.cell name) allowed) (term : Term) :
    Gives (term.resolve table) (Core.Expression.Within allowed) := by
  cases term with
  | plain first rest =>
    exact (first.gives_within cells).bind fun left leftWithin => rest.gives_within cells leftWithin
  | negated sign first rest =>
    exact (first.gives_within cells).bind fun left leftWithin => rest.gives_within cells leftWithin

theorem Terms.gives_within (cells : ∀ name, Gives (table.cell name) allowed) (terms : Terms)
    {left : Core.Expression} (leftWithin : left.Within allowed) :
    Gives (terms.resolve table left) (Core.Expression.Within allowed) := by
  cases terms with
  | done => exact .ok leftWithin
  | more sign term rest =>
    exact (term.gives_within cells).bind fun right rightWithin =>
      rest.gives_within cells ⟨leftWithin, rightWithin⟩

theorem Expression.gives_within (cells : ∀ name, Gives (table.cell name) allowed)
    (expression : Expression) :
    Gives (expression.resolve table) (Core.Expression.Within allowed) := by
  cases expression with
  | sum first rest =>
    exact (first.gives_within cells).bind fun left leftWithin => rest.gives_within cells leftWithin

end

theorem Condition.gives_within (cells : ∀ name, Gives (table.cell name) allowed)
    (condition : Condition) : Gives (condition.resolve table) (Core.Condition.Within allowed) :=
  (condition.left.gives_within cells).bind fun _ leftWithin =>
    (condition.right.gives_within cells).bind fun _ rightWithin => .ok ⟨leftWithin, rightWithin⟩

mutual

theorem Statement.gives_within (cells : ∀ name, Gives (table.cell name) allowed)
    (statement : Statement) :
    Gives (statement.resolve table) (Core.Command.Within allowed) := by
  cases statement with
  | read word targets =>
    have given := Gives.mapM fun name (_ : name ∈ targets.names.found) => cells name
    refine given.bind fun addresses known => .ok (Core.Command.within_inOrder ?_)
    simpa [Core.Command.Within] using known.2
  | write word left first rest right =>
    have given := Gives.mapM fun expression (_ : expression ∈ rest.map (·.2)) =>
      expression.gives_within cells
    refine (first.gives_within cells).bind fun value valueWithin =>
      given.bind fun values known => .ok ⟨valueWithin, Core.Command.within_inOrder ?_⟩
    simpa [Core.Command.Within] using known.2
  | choose word condition thenWord body close =>
    exact (condition.gives_within cells).bind fun tested testedWithin =>
      (body.gives_within cells).bind fun chosen chosenWithin =>
        .ok ⟨testedWithin, chosenWithin, trivial⟩
  | chooseElse word condition thenWord body elseWord other close =>
    exact (condition.gives_within cells).bind fun tested testedWithin =>
      (body.gives_within cells).bind fun chosen chosenWithin =>
        (other.gives_within cells).bind fun alternative alternativeWithin =>
          .ok ⟨testedWithin, chosenWithin, alternativeWithin⟩
  | loop word condition doWord body close =>
    exact (condition.gives_within cells).bind fun tested testedWithin =>
      (body.gives_within cells).bind fun repeated repeatedWithin =>
        .ok ⟨testedWithin, repeatedWithin⟩
  | assign target sign value =>
    exact (cells target.token).bind fun address inside =>
      (value.gives_within cells).bind fun assigned assignedWithin => .ok ⟨inside, assignedWithin⟩
  | call procedure arguments => exact SymbolTable.gives_within_call cells procedure.token _

theorem Statements.gives_within (cells : ∀ name, Gives (table.cell name) allowed)
    (statements : Statements) :
    Gives (statements.resolve table) (Core.Command.Within allowed) := by
  cases statements with
  | empty => exact .ok trivial
  | last statement => exact statement.gives_within cells
  | skip semicolon rest => exact rest.gives_within cells
  | more statement semicolon rest =>
    exact (statement.gives_within cells).bind fun first firstWithin =>
      (rest.gives_within cells).bind fun second secondWithin => .ok ⟨firstWithin, secondWithin⟩

end

end Tree

end Table

theorem Tree.within_of_resolveItems {allowed : Nat → Prop} {items : List Item}
    {context final : Context} {core : List Core.Item}
    (done : resolveItems items context = .ok (core, final)) (fits : context.Fits)
    (below : ∀ cell, cell < final.cells → allowed cell) :
    ∀ procedure ∈ Core.procedures core, procedure.Within allowed := by
  induction items generalizing context core with
  | nil =>
    cases done
    simp [Core.procedures]
  | cons item rest ih =>
    cases item with
    | vars vars =>
      obtain ⟨after, others, entering, resolving, rfl⟩ := of_resolveItems_variables done
      rw [Core.procedures]
      exact ih resolving (fits.declareCells (by simp) entering)
    | procedure declared =>
      obtain ⟨resolved, after, others, first, resolving, rfl⟩ := of_resolveItems_procedure done
      obtain ⟨headed, entered, steps⟩ := Procedure.of_resolve first
      have grown := cells_le_of_resolveItems resolving
      have cells := steps.cells
      have left : after.cells = entered.cells := by
        rw [steps.leaving]
        rfl
      rw [Core.procedures, List.forall_mem_cons]
      refine ⟨⟨?_, ?_⟩, ih resolving (steps.afterFits fits)⟩
      · intro address _ inside
        rw [steps.firstCell] at inside
        exact below address (by omega)
      · refine declared.body.gives_within (fun name cell same => ?_) _ steps.body
        have inside := SymbolTable.gives_cell (steps.enteredFits fits) name cell same
        exact below cell (by omega)

end Pascalet
