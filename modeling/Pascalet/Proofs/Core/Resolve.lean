import Pascalet.Compiler.Error
import Pascalet.Proofs.Core.Basic
import Pascalet.Proofs.Tree.Basic

namespace Pascalet

def SymbolTable.denoted (table : SymbolTable) (name : Token) : Except CompileError Symbol :=
  match table.lookup? name.lexeme with
  | some symbol => .ok symbol
  | none => .error (.undeclared name)

def SymbolTable.cell (table : SymbolTable) (name : Token) : Except CompileError Nat := do
  let symbol ← table.denoted name
  if symbol.isProcedure then .error (.procedureAsVariable name) else .ok symbol.address.toNat

def SymbolTable.call (table : SymbolTable) (name : Token) (arguments : List Token) :
    Except CompileError Core.Command := do
  let symbol ← table.denoted name
  if symbol.isProcedure then
    if arguments.length ≠ symbol.parameters.length then
      .error (.argumentCount name symbol.parameters.length arguments.length)
    else do
      let cells ← arguments.mapM table.cell
      .ok (.call symbol.address.toNat cells)
  else .error (.notProcedure name)

theorem SymbolTable.mem_of_lookup? {table : SymbolTable} {name : String} {symbol : Symbol}
    (found : table.lookup? name = some symbol) : symbol ∈ table.symbols := by
  rcases Option.or_eq_some_iff.mp found with here | ⟨_, outside⟩
  · exact List.mem_of_find?_eq_some here
  · exact List.mem_of_find?_eq_some outside

/-- What is declared at a place of a program: the names, with the number of a procedure in place of
its address, the number of cells in use, and how many parameters the procedures have. -/
structure Context where
  table : SymbolTable := {}
  cells : Nat := 0
  parameterCounts : List Nat := []

namespace Context

def checkFresh (context : Context) (name : Token) : Except CompileError Unit :=
  if context.table.declaredHere name.lexeme then .error (.redeclared name context.table.scope)
  else .ok ()

def enterCell (context : Context) (category : Category) (type : DataType) (name : Token) : Context :=
  { context with
    table := context.table.declare
      { name := name.lexeme, type := some type, category, scope := context.table.scope,
        address := context.cells }
    cells := context.cells + 1 }

def declareCell (category : Category) (context : Context) (declared : DataType × Token) :
    Except CompileError Context := do
  context.checkFresh declared.2
  .ok (context.enterCell category declared.1 declared.2)

def openProcedure (context : Context) (name : Token) : Except CompileError Context := do
  context.checkFresh name
  .ok { context with table := context.table.enterScope name.lexeme }

def declareProcedure (context : Context) (name : Token) (types : List DataType) : Context :=
  { context with
    table := context.table.declare
      { name := name.lexeme, type := none, category := .procedure, scope := globalScope,
        address := context.parameterCounts.length, parameters := types }
    parameterCounts := context.parameterCounts ++ [types.length] }

def closeProcedure (context : Context) : Context :=
  { context with table := context.table.exitScope }

end Context

namespace Tree

mutual

def Factor.resolve (table : SymbolTable) : Factor → Except CompileError Core.Expression
  | .name name => (table.cell name.token).map .cell
  | .literal literal => .ok (.constant literal.lexeme)
  | .group _ inner _ => inner.resolve table

def Factors.resolve (table : SymbolTable) (left : Core.Expression) :
    Factors → Except CompileError Core.Expression
  | .done => .ok left
  | .more sign factor rest => do
    let right ← factor.resolve table
    rest.resolve table (.binary sign.operator left right)

def Term.resolve (table : SymbolTable) : Term → Except CompileError Core.Expression
  | .plain first rest => do
    let left ← first.resolve table
    rest.resolve table left
  | .negated _ first rest => do
    let left ← first.resolve table
    rest.resolve table (.negate left)

def Terms.resolve (table : SymbolTable) (left : Core.Expression) :
    Terms → Except CompileError Core.Expression
  | .done => .ok left
  | .more sign term rest => do
    let right ← term.resolve table
    rest.resolve table (.binary sign.operator left right)

def Expression.resolve (table : SymbolTable) : Expression → Except CompileError Core.Expression
  | .sum first rest => do
    let left ← first.resolve table
    rest.resolve table left

end

def Condition.resolve (table : SymbolTable) (condition : Condition) :
    Except CompileError Core.Condition := do
  let left ← condition.left.resolve table
  let right ← condition.right.resolve table
  .ok ⟨condition.relation, left, right⟩

mutual

def Statement.resolve (table : SymbolTable) : Statement → Except CompileError Core.Command
  | .read _ targets => do
    let cells ← targets.names.found.mapM table.cell
    .ok (.inOrder (cells.map .read))
  | .write _ _ first rest _ => do
    let value ← first.resolve table
    let values ← (rest.map (·.2)).mapM (Expression.resolve table)
    .ok (.sequence (.write value) (.inOrder (values.map .write)))
  | .choose _ condition _ body _ => do
    let tested ← condition.resolve table
    let chosen ← body.resolve table
    .ok (.choose tested chosen .skip)
  | .chooseElse _ condition _ body _ other _ => do
    let tested ← condition.resolve table
    let chosen ← body.resolve table
    let alternative ← other.resolve table
    .ok (.choose tested chosen alternative)
  | .loop _ condition _ body _ => do
    let tested ← condition.resolve table
    let repeated ← body.resolve table
    .ok (.loop tested repeated)
  | .assign target _ value => do
    let address ← table.cell target.token
    let assigned ← value.resolve table
    .ok (.assign address assigned)
  | .call name arguments => table.call name.token (arguments.elim [] (·.names.found))

def Statements.resolve (table : SymbolTable) : Statements → Except CompileError Core.Command
  | .empty => .ok .skip
  | .last statement => statement.resolve table
  | .skip _ rest => rest.resolve table
  | .more statement _ rest => do
    let first ← statement.resolve table
    let second ← rest.resolve table
    .ok (.sequence first second)

end

def Typed.declared (typed : Typed) : List (DataType × Token) :=
  typed.names.found.map fun name => (typed.type.type, name)

def Procedure.parameterNames (procedure : Procedure) : List (DataType × Token) :=
  procedure.groups.flatMap Typed.declared

def Procedure.localNames (procedure : Procedure) : List (DataType × Token) :=
  procedure.locals.flatMap (·.typed.declared)

def Procedure.resolve (procedure : Procedure) (context : Context) :
    Except CompileError (Core.Procedure × Context) := do
  let opened ← context.openProcedure procedure.name.token
  let headed ← procedure.parameterNames.foldlM (Context.declareCell .parameter) opened
  let types := procedure.parameterNames.map (·.1)
  let entered ← procedure.localNames.foldlM (Context.declareCell .var)
    (headed.declareProcedure procedure.name.token types)
  let body ← procedure.body.resolve entered.table
  let resolved := ⟨context.cells, procedure.parameterNames.length, procedure.localNames.length, body⟩
  .ok (resolved, entered.closeProcedure)

def resolveItems : List Item → Context → Except CompileError (List Core.Item × Context)
  | [], context => .ok ([], context)
  | .vars declared :: rest, context => do
    let entered ← declared.typed.declared.foldlM (Context.declareCell .var) context
    let (items, final) ← resolveItems rest entered
    .ok (.vars declared.typed.declared.length :: items, final)
  | .procedure declared :: rest, context => do
    let (procedure, entered) ← declared.resolve context
    let (items, final) ← resolveItems rest entered
    .ok (.procedure procedure :: items, final)

/-- The core program of a tree, with what the program declares. -/
def Program.resolve (program : Program) : Except CompileError (Core.Program × Context) := do
  let (items, context) ← resolveItems program.items {}
  let body ← program.body.resolve context.table
  .ok (⟨items, body⟩, context)

end Tree

end Pascalet
