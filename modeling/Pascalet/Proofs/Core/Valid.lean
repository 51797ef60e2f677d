import Mathlib.Data.List.Forall2
import Pascalet.Proofs.Core.Context
import Pascalet.Proofs.Token.Tokenized

namespace Pascalet

namespace Core

def Expression.Valid (cells : Nat) : Expression → Prop
  | .cell address => address < cells
  | .constant text => Numeral.IsDecimal text.toList
  | .negate operand => operand.Valid cells
  | .binary _ left right => left.Valid cells ∧ right.Valid cells

def Condition.Valid (cells : Nat) (condition : Condition) : Prop :=
  condition.left.Valid cells ∧ condition.right.Valid cells

/-- A command among so many cells, and procedures with so many parameters. -/
def Command.Valid (cells : Nat) (parameterCounts : List Nat) : Command → Prop
  | .skip => True
  | .sequence first second =>
    first.Valid cells parameterCounts ∧ second.Valid cells parameterCounts
  | .read address => address < cells
  | .write value => value.Valid cells
  | .assign address value => address < cells ∧ value.Valid cells
  | .choose condition body other =>
    condition.Valid cells ∧ body.Valid cells parameterCounts ∧ other.Valid cells parameterCounts
  | .loop condition body => condition.Valid cells ∧ body.Valid cells parameterCounts
  | .call procedure arguments =>
    parameterCounts[procedure]? = some arguments.length ∧ ∀ address ∈ arguments, address < cells

/-- A procedure that can call itself and those before it. -/
structure Procedure.Valid (cells : Nat) (parameterCounts : List Nat) (procedure : Procedure) : Prop where
  parameters : procedure.firstCell + procedure.parameterCount ≤ cells
  body : procedure.body.Valid cells (parameterCounts ++ [procedure.parameterCount])

def ItemsValid (cells : Nat) : List Nat → List Item → Prop
  | _, [] => True
  | parameterCounts, .vars _ :: rest => ItemsValid cells parameterCounts rest
  | parameterCounts, .procedure declared :: rest =>
    declared.Valid cells parameterCounts ∧
      ItemsValid cells (parameterCounts ++ [declared.parameterCount]) rest

structure Program.Valid (cells : Nat) (program : Program) : Prop where
  items : ItemsValid cells [] program.items
  body : program.body.Valid cells (program.procedures.map (·.parameterCount))

theorem Expression.Valid.mono {cells more : Nat} {expression : Expression}
    (valid : expression.Valid cells) (le : cells ≤ more) : expression.Valid more := by
  induction expression with
  | cell address => exact Nat.lt_of_lt_of_le valid le
  | constant text => exact valid
  | negate operand ih => exact ih valid
  | binary operator left right leftIh rightIh => exact ⟨leftIh valid.1, rightIh valid.2⟩

theorem Condition.Valid.mono {cells more : Nat} {condition : Condition}
    (valid : condition.Valid cells) (le : cells ≤ more) : condition.Valid more :=
  ⟨valid.1.mono le, valid.2.mono le⟩

theorem Command.Valid.mono {cells more : Nat} {parameterCounts : List Nat} {command : Command}
    (valid : command.Valid cells parameterCounts) (le : cells ≤ more) (others : List Nat) :
    command.Valid more (parameterCounts ++ others) := by
  induction command with
  | skip => trivial
  | sequence first second firstIh secondIh => exact ⟨firstIh valid.1, secondIh valid.2⟩
  | read address => exact Nat.lt_of_lt_of_le valid le
  | write value => exact Expression.Valid.mono valid le
  | assign address value => exact ⟨Nat.lt_of_lt_of_le valid.1 le, valid.2.mono le⟩
  | choose condition body other bodyIh otherIh =>
    exact ⟨valid.1.mono le, bodyIh valid.2.1, otherIh valid.2.2⟩
  | loop condition body ih => exact ⟨valid.1.mono le, ih valid.2⟩
  | call procedure arguments =>
    refine ⟨?_, fun address found => Nat.lt_of_lt_of_le (valid.2 address found) le⟩
    rw [List.getElem?_append_left (List.getElem?_eq_some_iff.mp valid.1).1]
    exact valid.1

theorem Command.valid_inOrder {cells : Nat} {parameterCounts : List Nat} {commands : List Command}
    (valid : ∀ command ∈ commands, command.Valid cells parameterCounts) :
    (inOrder commands).Valid cells parameterCounts := by
  induction commands with
  | nil => trivial
  | cons command rest ih =>
    rw [List.forall_mem_cons] at valid
    exact ⟨valid.1, ih valid.2⟩

end Core

/-- What a result is, if it is there. -/
def Gives {α : Type} (result : Except CompileError α) (holds : α → Prop) : Prop :=
  ∀ value, result = .ok value → holds value

namespace Gives

variable {α β : Type} {result : Except CompileError α} {holds : α → Prop} {final : β → Prop}

theorem ok {value : α} (known : holds value) : Gives (.ok value) holds := by
  intro found same
  cases same
  exact known

theorem bind {use : α → Except CompileError β} (first : Gives result holds)
    (second : ∀ value, holds value → Gives (use value) final) : Gives (result >>= use) final := by
  cases result with
  | error error =>
    intro found same
    cases same
  | ok value => exact second value (first value rfl)

theorem map {use : α → β} (first : Gives result holds) (each : ∀ value, holds value → final (use value)) :
    Gives (result.map use) final := by
  intro found same
  cases result with
  | error error => cases same
  | ok value =>
    cases same
    exact each value (first value rfl)

theorem mapM_forall₂ {step : α → Except CompileError β} {items : List α} {each : α → β → Prop}
    (given : ∀ item ∈ items, Gives (step item) (each item)) :
    Gives (items.mapM step) (List.Forall₂ each items) := by
  induction items with
  | nil => exact ok .nil
  | cons item rest ih =>
    rw [List.forall_mem_cons] at given
    rw [List.mapM_cons]
    exact given.1.bind fun value known => (ih given.2).bind fun values others => ok (.cons known others)

theorem mapM {step : α → Except CompileError β} {items : List α}
    (each : ∀ item ∈ items, Gives (step item) final) :
    Gives (items.mapM step) fun values => values.length = items.length ∧ ∀ value ∈ values, final value := by
  intro values given
  have known := mapM_forall₂ each values given
  have marked := known.flip.imp fun value item good => And.intro good (True.intro)
  exact ⟨known.length_eq.symm, ((List.forall₂_and_left _ _).mp marked).1⟩

end Gives

section Table

variable {cells : Nat} {parameterCounts : List Nat} {table : SymbolTable}

theorem SymbolTable.gives_lookup (name : Token) :
    Gives (table.denoted name) fun symbol => table.lookup? name.lexeme = some symbol := by
  intro symbol found
  unfold denoted at found
  split at found
  next lookup =>
    cases found
    exact lookup
  · cases found

theorem SymbolTable.gives_denoted (fits : table.Fits cells parameterCounts) (name : Token) :
    Gives (table.denoted name) (Symbol.Fits cells parameterCounts) :=
  fun symbol found => fits symbol (mem_of_lookup? (gives_lookup name symbol found))

theorem SymbolTable.gives_cell (fits : table.Fits cells parameterCounts) (name : Token) :
    Gives (table.cell name) (· < cells) := by
  refine (gives_denoted fits name).bind fun symbol symbolFits => ?_
  obtain ⟨number, address, _, bounded⟩ := symbolFits
  intro found same
  split at same
  · cases same
  next other =>
    cases same
    rw [address]
    exact bounded (Bool.eq_false_iff.mpr other)

theorem SymbolTable.gives_call (fits : table.Fits cells parameterCounts) (name : Token)
    (arguments : List Token) :
    Gives (table.call name arguments) (Core.Command.Valid cells parameterCounts) := by
  refine (gives_denoted fits name).bind fun symbol symbolFits => ?_
  obtain ⟨number, address, counted, _⟩ := symbolFits
  intro found same
  split at same
  next procedure =>
    split at same
    · cases same
    next equal =>
      have given := Gives.mapM (fun argument (_ : argument ∈ arguments) => gives_cell fits argument)
      refine given.bind (fun addresses known => ?_) found same
      refine Gives.ok ⟨?_, known.2⟩
      rw [address, Int.toNat_natCast, counted procedure, known.1, Decidable.not_not.mp equal]
  · cases same

namespace Tree

theorem Literal.isDecimal (literal : Literal) (plain : literal.token.IsPlain) :
    Numeral.IsDecimal literal.lexeme.toList := by
  cases literal with
  | integer terminal => exact plain rfl
  | real terminal => exact plain rfl

mutual

theorem Factor.gives_valid (fits : table.Fits cells parameterCounts) (factor : Factor)
    (plain : ∀ token ∈ factor.tokens, token.IsPlain) :
    Gives (factor.resolve table) (Core.Expression.Valid cells) := by
  cases factor with
  | name name => exact (SymbolTable.gives_cell fits name.token).map fun address inside => inside
  | literal literal => exact .ok (literal.isDecimal (plain _ List.mem_cons_self))
  | group left inner right =>
    simp only [Factor.tokens, List.forall_mem_append, List.forall_mem_cons] at plain
    exact inner.gives_valid fits plain.1.2

theorem Factors.gives_valid (fits : table.Fits cells parameterCounts) (factors : Factors)
    (plain : ∀ token ∈ factors.tokens, token.IsPlain) {left : Core.Expression}
    (leftValid : left.Valid cells) :
    Gives (factors.resolve table left) (Core.Expression.Valid cells) := by
  cases factors with
  | done => exact .ok leftValid
  | more sign factor rest =>
    simp only [Factors.tokens, List.forall_mem_append, List.forall_mem_cons] at plain
    exact (factor.gives_valid fits plain.1.2).bind fun right rightValid =>
      rest.gives_valid fits plain.2 ⟨leftValid, rightValid⟩

theorem Term.gives_valid (fits : table.Fits cells parameterCounts) (term : Term)
    (plain : ∀ token ∈ term.tokens, token.IsPlain) :
    Gives (term.resolve table) (Core.Expression.Valid cells) := by
  cases term with
  | plain first rest =>
    simp only [Term.tokens, List.forall_mem_append] at plain
    exact (first.gives_valid fits plain.1).bind fun left leftValid =>
      rest.gives_valid fits plain.2 leftValid
  | negated sign first rest =>
    simp only [Term.tokens, List.forall_mem_append, List.forall_mem_cons] at plain
    exact (first.gives_valid fits plain.1.2).bind fun left leftValid =>
      rest.gives_valid fits plain.2 leftValid

theorem Terms.gives_valid (fits : table.Fits cells parameterCounts) (terms : Terms)
    (plain : ∀ token ∈ terms.tokens, token.IsPlain) {left : Core.Expression}
    (leftValid : left.Valid cells) :
    Gives (terms.resolve table left) (Core.Expression.Valid cells) := by
  cases terms with
  | done => exact .ok leftValid
  | more sign term rest =>
    simp only [Terms.tokens, List.forall_mem_append, List.forall_mem_cons] at plain
    exact (term.gives_valid fits plain.1.2).bind fun right rightValid =>
      rest.gives_valid fits plain.2 ⟨leftValid, rightValid⟩

theorem Expression.gives_valid (fits : table.Fits cells parameterCounts) (expression : Expression)
    (plain : ∀ token ∈ expression.tokens, token.IsPlain) :
    Gives (expression.resolve table) (Core.Expression.Valid cells) := by
  cases expression with
  | sum first rest =>
    simp only [Expression.tokens, List.forall_mem_append] at plain
    exact (first.gives_valid fits plain.1).bind fun left leftValid =>
      rest.gives_valid fits plain.2 leftValid

end

theorem Condition.gives_valid (fits : table.Fits cells parameterCounts) (condition : Condition)
    (plain : ∀ token ∈ condition.tokens, token.IsPlain) :
    Gives (condition.resolve table) (Core.Condition.Valid cells) := by
  simp only [Condition.tokens, List.forall_mem_append, List.forall_mem_cons] at plain
  exact (condition.left.gives_valid fits plain.1).bind fun left leftValid =>
    (condition.right.gives_valid fits plain.2.2).bind fun right rightValid =>
      .ok ⟨leftValid, rightValid⟩

mutual

theorem Statement.gives_valid (fits : table.Fits cells parameterCounts) (statement : Statement)
    (plain : ∀ token ∈ statement.tokens, token.IsPlain) :
    Gives (statement.resolve table) (Core.Command.Valid cells parameterCounts) := by
  cases statement with
  | read word targets =>
    have given := Gives.mapM fun name (_ : name ∈ targets.names.found) =>
      SymbolTable.gives_cell fits name
    refine given.bind fun addresses known => .ok (Core.Command.valid_inOrder ?_)
    simpa [Core.Command.Valid] using known.2
  | write word left first rest right =>
    simp only [Statement.tokens, moreExpressions, List.forall_mem_append, List.forall_mem_cons] at plain
    have given := Gives.mapM fun expression (found : expression ∈ rest.map (·.2)) =>
      expression.gives_valid fits fun token member => plain.1.2 token (by
        obtain ⟨⟨comma, same⟩, inside, rfl⟩ := List.mem_map.mp found
        exact List.mem_flatMap.mpr ⟨_, inside, List.mem_cons_of_mem _ member⟩)
    refine (first.gives_valid fits plain.1.1.2.2).bind fun value valueValid =>
      given.bind fun values known => .ok ⟨valueValid, Core.Command.valid_inOrder ?_⟩
    simpa [Core.Command.Valid] using known.2
  | choose word condition thenWord body close =>
    simp only [Statement.tokens, List.forall_mem_append, List.forall_mem_cons] at plain
    exact (condition.gives_valid fits plain.1.1.2).bind fun tested testedValid =>
      (body.gives_valid fits plain.1.2.2).bind fun chosen chosenValid =>
        .ok ⟨testedValid, chosenValid, trivial⟩
  | chooseElse word condition thenWord body elseWord other close =>
    simp only [Statement.tokens, List.forall_mem_append, List.forall_mem_cons] at plain
    exact (condition.gives_valid fits plain.1.1.1.2).bind fun tested testedValid =>
      (body.gives_valid fits plain.1.1.2.2).bind fun chosen chosenValid =>
        (other.gives_valid fits plain.1.2.2).bind fun alternative alternativeValid =>
          .ok ⟨testedValid, chosenValid, alternativeValid⟩
  | loop word condition doWord body close =>
    simp only [Statement.tokens, List.forall_mem_append, List.forall_mem_cons] at plain
    exact (condition.gives_valid fits plain.1.1.2).bind fun tested testedValid =>
      (body.gives_valid fits plain.1.2.2).bind fun repeated repeatedValid =>
        .ok ⟨testedValid, repeatedValid⟩
  | assign target sign value =>
    simp only [Statement.tokens, List.forall_mem_cons] at plain
    exact (SymbolTable.gives_cell fits target.token).bind fun address inside =>
      (value.gives_valid fits plain.2.2).bind fun assigned assignedValid =>
        .ok ⟨inside, assignedValid⟩
  | call procedure arguments => exact SymbolTable.gives_call fits procedure.token _

theorem Statements.gives_valid (fits : table.Fits cells parameterCounts) (statements : Statements)
    (plain : ∀ token ∈ statements.tokens, token.IsPlain) :
    Gives (statements.resolve table) (Core.Command.Valid cells parameterCounts) := by
  cases statements with
  | empty => exact .ok trivial
  | last statement => exact statement.gives_valid fits plain
  | skip semicolon rest =>
    simp only [Statements.tokens, List.forall_mem_cons] at plain
    exact rest.gives_valid fits plain.2
  | more statement semicolon rest =>
    simp only [Statements.tokens, List.forall_mem_append, List.forall_mem_cons] at plain
    exact (statement.gives_valid fits plain.1).bind fun first firstValid =>
      (rest.gives_valid fits plain.2.2).bind fun second secondValid =>
        .ok ⟨firstValid, secondValid⟩

end

end Tree

end Table

namespace Tree

variable {declared : Procedure} {context after headed entered : Context} {resolved : Core.Procedure}

theorem Procedure.Resolved.cells (steps : declared.Resolved context resolved after headed entered) :
    after.cells = context.cells + resolved.parameterCount + resolved.localCount := by
  have ofHeading := Context.cells_of_declareCells steps.heading
  have ofEntering := Context.cells_of_declareCells steps.entering
  rw [steps.leaving, steps.parameterCount, steps.localCount]
  exact ofEntering.trans (congrArg (· + _) ofHeading)

theorem Procedure.Resolved.valid (steps : declared.Resolved context resolved after headed entered)
    (fits : context.Fits) (plain : ∀ token ∈ declared.tokens, token.IsPlain) :
    resolved.Valid after.cells context.parameterCounts := by
  constructor
  · rw [steps.cells, steps.firstCell]
    omega
  · rw [← steps.parameterCounts, steps.leaving]
    simp only [Procedure.tokens, Procedure.tail, List.forall_mem_append, List.forall_mem_cons] at plain
    exact declared.body.gives_valid (steps.enteredFits fits) plain.2.1.2.2 _ steps.body

theorem cells_le_of_resolveItems {items : List Item} {context final : Context}
    {core : List Core.Item} (done : resolveItems items context = .ok (core, final)) :
    context.cells ≤ final.cells := by
  induction items generalizing context core with
  | nil =>
    cases done
    exact Nat.le_refl _
  | cons item rest ih =>
    cases item with
    | vars vars =>
      obtain ⟨after, others, entering, resolving, _⟩ := of_resolveItems_variables done
      have grown := Context.cells_of_declareCells entering
      have later := ih resolving
      omega
    | procedure declared =>
      obtain ⟨resolved, after, others, first, resolving, _⟩ := of_resolveItems_procedure done
      obtain ⟨headed, entered, steps⟩ := Procedure.of_resolve first
      have grown := steps.cells
      have later := ih resolving
      omega

theorem itemsValid_of_resolveItems {items : List Item} {context final : Context}
    {core : List Core.Item} (done : resolveItems items context = .ok (core, final))
    (fits : context.Fits) (plain : ∀ item ∈ items, ∀ token ∈ item.tokens, token.IsPlain) :
    Core.ItemsValid final.cells context.parameterCounts core := by
  induction items generalizing context core with
  | nil =>
    cases done
    trivial
  | cons item rest ih =>
    rw [List.forall_mem_cons] at plain
    cases item with
    | vars vars =>
      obtain ⟨after, others, entering, resolving, rfl⟩ := of_resolveItems_variables done
      have rest := ih resolving (fits.declareCells (by simp) entering) plain.2
      rw [Context.parameterCounts_of_declareCells entering] at rest
      exact rest
    | procedure declared =>
      obtain ⟨resolved, after, others, first, resolving, rfl⟩ := of_resolveItems_procedure done
      obtain ⟨headed, entered, steps⟩ := Procedure.of_resolve first
      have rest := ih resolving (steps.afterFits fits) plain.2
      rw [steps.parameterCounts] at rest
      have valid := steps.valid fits plain.1
      have grown := cells_le_of_resolveItems resolving
      have bodyValid := valid.body.mono grown []
      rw [List.append_nil] at bodyValid
      exact ⟨⟨Nat.le_trans valid.parameters grown, bodyValid⟩, rest⟩

theorem Program.gives_valid (tree : Program) (plain : ∀ token ∈ tree.tokens, token.IsPlain) :
    Gives tree.resolve fun (core, context) => core.Valid context.cells := by
  simp only [Program.tokens, Program.tail, ← tree.items_tokens, List.forall_mem_append,
    List.forall_mem_cons] at plain
  have itemsPlain : ∀ item ∈ tree.items, ∀ token ∈ item.tokens, token.IsPlain :=
    fun item found token member => plain.2.1.1.2 token (List.mem_flatMap.mpr ⟨item, found, member⟩)
  have start : Context.Fits {} := Context.fits_empty
  refine Gives.bind (fun resolved same => same) fun (items, context) resolving => ?_
  obtain ⟨fits, counts⟩ := fits_of_resolveItems resolving start
  rw [List.nil_append] at counts
  have bodyValid := tree.body.gives_valid fits plain.2.1.2.2
  rw [counts] at bodyValid
  exact bodyValid.bind fun body valid =>
    .ok ⟨itemsValid_of_resolveItems resolving start itemsPlain, valid⟩

end Tree

end Pascalet
