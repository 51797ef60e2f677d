import Pascalet.Text.Quoted

namespace Pascalet

inductive DataType where
  | integer
  | real
deriving DecidableEq, Repr

def DataType.name : DataType → String
  | integer => "integer"
  | real => "real"

inductive Category where
  | var
  | procedure
  | parameter
deriving DecidableEq, Repr

def Category.name : Category → String
  | var => "variable"
  | procedure => "procedure"
  | parameter => "parameter"

def globalScope : String := "global"

/-- A declared name. The address of a variable or parameter is its memory cell, that of a procedure
the index of its first instruction. -/
structure Symbol where
  name : String
  type : Option DataType
  category : Category
  scope : String
  address : Int
  parameters : List DataType := []
deriving DecidableEq

namespace Symbol

def isProcedure (symbol : Symbol) : Bool :=
  symbol.category == .procedure

def row (symbol : Symbol) : String :=
  Text.padRight 12 symbol.name ++ " " ++ Text.padRight 8 (symbol.type.elim "-" DataType.name) ++ " " ++
    Text.padRight 10 symbol.category.name ++ " " ++ Text.padRight 12 symbol.scope ++ " " ++
    toString symbol.address

end Symbol

structure SymbolTable where
  symbols : List Symbol := []
  scope : String := globalScope
deriving DecidableEq

namespace SymbolTable

def enterScope (table : SymbolTable) (name : String) : SymbolTable :=
  { table with scope := name }

def exitScope (table : SymbolTable) : SymbolTable :=
  { table with scope := globalScope }

/-- Adds a symbol as it is; whoever declares checks for an earlier one first. -/
def declare (table : SymbolTable) (symbol : Symbol) : SymbolTable :=
  { table with symbols := table.symbols ++ [symbol] }

def findIn? (table : SymbolTable) (scope name : String) : Option Symbol :=
  table.symbols.find? fun symbol => symbol.name == name && symbol.scope == scope

/-- The first symbol of this name in the current scope, and otherwise in the global one. -/
def lookup? (table : SymbolTable) (name : String) : Option Symbol :=
  (table.findIn? table.scope name).or (table.findIn? globalScope name)

def declaredHere (table : SymbolTable) (name : String) : Bool :=
  (table.findIn? table.scope name).isSome

def inScope (table : SymbolTable) (scope : String) : List Symbol :=
  table.symbols.filter (·.scope == scope)

def listing (table : SymbolTable) : String :=
  let header := Text.padRight 12 "name" ++ " " ++ Text.padRight 8 "type" ++ " " ++
    Text.padRight 10 "category" ++ " " ++ Text.padRight 12 "scope" ++ " address"
  "\n".intercalate ("=== Symbol Table ===" :: header :: table.symbols.map Symbol.row)

end SymbolTable

end Pascalet
