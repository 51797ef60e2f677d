import Pascalet.Proofs.Core.Resolve

namespace Pascalet.Tree

inductive Meaning where
  | cell
  | procedure (parameterCount : Nat)
deriving DecidableEq

inductive Use where
  | cell (name : String)
  | call (name : String) (argumentCount : Nat)

def Use.name : Use → String
  | .cell name => name
  | .call name _ => name

/-- A value needs a variable or parameter, a call a procedure with as many parameters as arguments. -/
def Use.Accepts : Use → Meaning → Prop
  | .cell _, meaning => meaning = .cell
  | .call _ argumentCount, meaning => meaning = .procedure argumentCount

def cellUses (names : List Token) : List Use :=
  names.map fun name => .cell name.lexeme

mutual

def Factor.uses : Factor → List Use
  | .name name => [.cell name.lexeme]
  | .literal _ => []
  | .group _ inner _ => inner.uses

def Factors.uses : Factors → List Use
  | .done => []
  | .more _ factor rest => factor.uses ++ rest.uses

def Term.uses : Term → List Use
  | .plain first rest => first.uses ++ rest.uses
  | .negated _ first rest => first.uses ++ rest.uses

def Terms.uses : Terms → List Use
  | .done => []
  | .more _ term rest => term.uses ++ rest.uses

def Expression.uses : Expression → List Use
  | .sum first rest => first.uses ++ rest.uses

end

def Condition.uses (condition : Condition) : List Use :=
  condition.left.uses ++ condition.right.uses

mutual

def Statement.uses : Statement → List Use
  | .read _ targets => cellUses targets.names.found
  | .write _ _ first rest _ => first.uses ++ (rest.map (·.2)).flatMap Expression.uses
  | .choose _ condition _ body _ => condition.uses ++ body.uses
  | .chooseElse _ condition _ body _ other _ => condition.uses ++ (body.uses ++ other.uses)
  | .loop _ condition _ body _ => condition.uses ++ body.uses
  | .assign target _ value => .cell target.lexeme :: value.uses
  | .call name arguments =>
    let passed := arguments.elim [] (·.names.found)
    .call name.lexeme passed.length :: cellUses passed

def Statements.uses : Statements → List Use
  | .empty => []
  | .last statement => statement.uses
  | .skip _ rest => rest.uses
  | .more statement _ rest => statement.uses ++ rest.uses

end

def Variables.names (vars : Variables) : List String :=
  vars.typed.names.found.map (·.lexeme)

def Procedure.ownNames (procedure : Procedure) : List String :=
  (procedure.parameterNames ++ procedure.localNames).map (·.2.lexeme)

def Item.names : Item → List String
  | .vars declared => declared.names
  | .procedure declared => [declared.name.lexeme]

def Item.Declares : Item → String → Meaning → Prop
  | .vars declared, name, meaning => name ∈ declared.names ∧ meaning = .cell
  | .procedure declared, name, meaning =>
    name = declared.name.lexeme ∧ meaning = .procedure declared.parameterNames.length

/-- What a name stands for outside of procedures, behind some declarations. -/
def Denotes (before : List Item) (name : String) (meaning : Meaning) : Prop :=
  ∃ item ∈ before, item.Declares name meaning

/-- What a name stands for inside a procedure: its own parameter or variable if it has one of that
name, and otherwise what is declared before, the procedure itself included. -/
def Procedure.Denotes (procedure : Procedure) (before : List Item) (name : String)
    (meaning : Meaning) : Prop :=
  if name ∈ procedure.ownNames then meaning = .cell
  else Tree.Denotes (before ++ [.procedure procedure]) name meaning

/-- The rules that names are declared once and used as what they stand for. -/
structure Program.WellScoped (program : Program) : Prop where
  globals : (program.items.flatMap Item.names).Nodup
  locals : ∀ procedure, .procedure procedure ∈ program.items → procedure.ownNames.Nodup
  procedureUses : ∀ before procedure after,
    program.items = before ++ .procedure procedure :: after →
    ∀ use ∈ procedure.body.uses, ∃ meaning, procedure.Denotes before use.name meaning ∧
      use.Accepts meaning
  mainUses : ∀ use ∈ program.body.uses, ∃ meaning, Denotes program.items use.name meaning ∧
    use.Accepts meaning

end Pascalet.Tree
