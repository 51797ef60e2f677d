import Pascalet.Proofs.Core.Resolve

namespace Pascalet

/-- Errors in the use of names. -/
def CompileError.isSemantic : CompileError → Bool
  | redeclared _ _ | undeclared _ | procedureAsVariable _ | notProcedure _ | argumentCount _ _ _ => true
  | invalidCharacter _ | unexpected _ _ | jump _ => false

def FailsByNames {α : Type} (result : Except CompileError α) : Prop :=
  ∀ error, result = .error error → error.isSemantic = true

namespace FailsByNames

variable {α β : Type} {result : Except CompileError α}

theorem ok (value : α) : FailsByNames (.ok value) := by
  intro error failed
  cases failed

theorem map {use : α → β} (first : FailsByNames result) : FailsByNames (result.map use) := by
  intro error failed
  cases result with
  | error cause =>
    cases failed
    exact first _ rfl
  | ok value => cases failed

theorem bind {use : α → Except CompileError β} (first : FailsByNames result)
    (second : ∀ value, FailsByNames (use value)) : FailsByNames (result >>= use) := by
  intro error failed
  cases result with
  | error cause =>
    cases failed
    exact first _ rfl
  | ok value => exact second value error failed

theorem mapM {step : α → Except CompileError β} (each : ∀ item, FailsByNames (step item))
    (items : List α) : FailsByNames (items.mapM step) := by
  induction items with
  | nil => exact ok []
  | cons item rest ih =>
    rw [List.mapM_cons]
    exact (each item).bind fun value => ih.bind fun values => ok (value :: values)

theorem foldlM {step : β → α → Except CompileError β}
    (each : ∀ reached item, FailsByNames (step reached item)) (items : List α) (start : β) :
    FailsByNames (items.foldlM step start) := by
  induction items generalizing start with
  | nil => exact ok start
  | cons item rest ih =>
    rw [List.foldlM_cons]
    exact (each start item).bind ih

end FailsByNames

namespace SymbolTable

variable (table : SymbolTable)

theorem failsByNames_denoted (name : Token) : FailsByNames (table.denoted name) := by
  intro error failed
  unfold denoted at failed
  split at failed <;> cases failed
  rfl

theorem failsByNames_cell (name : Token) : FailsByNames (table.cell name) := by
  refine (table.failsByNames_denoted name).bind fun symbol error failed => ?_
  split at failed <;> cases failed
  rfl

theorem failsByNames_call (name : Token) (arguments : List Token) :
    FailsByNames (table.call name arguments) := by
  refine (table.failsByNames_denoted name).bind fun symbol => ?_
  split
  · split
    · intro error failed
      cases failed
      rfl
    · exact (FailsByNames.mapM table.failsByNames_cell arguments).bind fun cells => .ok _
  · intro error failed
    cases failed
    rfl

end SymbolTable

namespace Tree

variable (table : SymbolTable)

mutual

theorem Factor.failsByNames (factor : Factor) : FailsByNames (factor.resolve table) := by
  cases factor with
  | name name => exact (table.failsByNames_cell name.token).map
  | literal literal => exact .ok _
  | group left inner right => exact inner.failsByNames

theorem Factors.failsByNames (factors : Factors) (left : Core.Expression) :
    FailsByNames (factors.resolve table left) := by
  cases factors with
  | done => exact .ok left
  | more sign factor rest => exact factor.failsByNames.bind fun right => rest.failsByNames _

theorem Term.failsByNames (term : Term) : FailsByNames (term.resolve table) := by
  cases term with
  | plain first rest => exact first.failsByNames.bind fun left => rest.failsByNames left
  | negated sign first rest => exact first.failsByNames.bind fun left => rest.failsByNames _

theorem Terms.failsByNames (terms : Terms) (left : Core.Expression) :
    FailsByNames (terms.resolve table left) := by
  cases terms with
  | done => exact .ok left
  | more sign term rest => exact term.failsByNames.bind fun right => rest.failsByNames _

theorem Expression.failsByNames (expression : Expression) :
    FailsByNames (expression.resolve table) := by
  cases expression with
  | sum first rest => exact first.failsByNames.bind fun left => rest.failsByNames left

end

theorem Condition.failsByNames (condition : Condition) : FailsByNames (condition.resolve table) :=
  (condition.left.failsByNames table).bind fun _ =>
    (condition.right.failsByNames table).bind fun _ => .ok _

mutual

theorem Statement.failsByNames (statement : Statement) : FailsByNames (statement.resolve table) := by
  cases statement with
  | read word targets =>
    exact (FailsByNames.mapM table.failsByNames_cell _).bind fun cells => .ok _
  | write word left first rest right =>
    exact (first.failsByNames table).bind fun value =>
      (FailsByNames.mapM (Expression.failsByNames table) _).bind fun values => .ok _
  | choose word condition thenWord body close =>
    exact (condition.failsByNames table).bind fun tested => body.failsByNames.bind fun chosen => .ok _
  | chooseElse word condition thenWord body elseWord other close =>
    exact (condition.failsByNames table).bind fun tested => body.failsByNames.bind fun chosen =>
      other.failsByNames.bind fun alternative => .ok _
  | loop word condition doWord body close =>
    exact (condition.failsByNames table).bind fun tested =>
      body.failsByNames.bind fun repeated => .ok _
  | assign target sign value =>
    exact (table.failsByNames_cell target.token).bind fun address =>
      (value.failsByNames table).bind fun assigned => .ok _
  | call name arguments => exact table.failsByNames_call name.token _

theorem Statements.failsByNames (statements : Statements) :
    FailsByNames (statements.resolve table) := by
  cases statements with
  | empty => exact .ok _
  | last statement => exact statement.failsByNames
  | skip semicolon rest => exact rest.failsByNames
  | more statement semicolon rest =>
    exact statement.failsByNames.bind fun first => rest.failsByNames.bind fun second => .ok _

end

theorem failsByNames_checkFresh (context : Context) (name : Token) :
    FailsByNames (context.checkFresh name) := by
  intro error failed
  unfold Context.checkFresh at failed
  split at failed <;> cases failed
  rfl

theorem failsByNames_declareCell (category : Category) (context : Context)
    (declared : DataType × Token) : FailsByNames (context.declareCell category declared) :=
  (failsByNames_checkFresh context declared.2).bind fun _ => .ok _

theorem Procedure.failsByNames (procedure : Procedure) (context : Context) :
    FailsByNames (procedure.resolve context) :=
  (failsByNames_checkFresh context procedure.name.token).bind (fun _ => .ok _) |>.bind fun opened =>
    (FailsByNames.foldlM (failsByNames_declareCell .parameter) _ opened).bind fun _ =>
      (FailsByNames.foldlM (failsByNames_declareCell .var) _ _).bind fun entered =>
        (procedure.body.failsByNames entered.table).bind fun _ => .ok _

theorem failsByNames_resolveItems (items : List Item) (context : Context) :
    FailsByNames (resolveItems items context) := by
  induction items generalizing context with
  | nil => exact .ok _
  | cons item rest ih =>
    cases item with
    | vars declared =>
      exact (FailsByNames.foldlM (failsByNames_declareCell .var) _ context).bind fun entered =>
        (ih entered).bind fun _ => .ok _
    | procedure declared =>
      exact (declared.failsByNames context).bind fun resolved => (ih resolved.2).bind fun _ => .ok _

theorem Program.failsByNames (program : Program) : FailsByNames program.resolve :=
  (failsByNames_resolveItems program.items {}).bind fun resolved =>
    (program.body.failsByNames resolved.2.table).bind fun _ => .ok _

end Tree

end Pascalet
