import Pascalet.Compiler.Error
import Pascalet.Symbol.Table

namespace Pascalet

structure OpenProcedure where
  name : String
  entry : Nat
  parameters : List (DataType × Int) := []
  localCount : Nat := 0

def OpenProcedure.addParameter (procedure : OpenProcedure) (type : DataType) (address : Int) :
    OpenProcedure :=
  { procedure with parameters := procedure.parameters ++ [(type, address)] }

def OpenProcedure.addLocal (procedure : OpenProcedure) : OpenProcedure :=
  { procedure with localCount := procedure.localCount + 1 }

structure Draft where
  name : String := ""
  symbols : SymbolTable := {}
  code : Buffer := {}
  procedure : Option OpenProcedure := none

namespace Draft

def emit (draft : Draft) (opcode : Opcode) (argument : Argument := .absent) : Draft :=
  { draft with code := draft.code.emit opcode argument }

def emitAt (draft : Draft) (opcode : Opcode) (argument : Int) : Draft :=
  draft.emit opcode (.integer argument)

def emitJump (draft : Draft) (opcode : Opcode) : Draft :=
  { draft with code := draft.code.emitJump opcode }

def patch (draft : Draft) (index : Nat) (target : Nat) : Except CompileError Draft :=
  match draft.code.patch index target with
  | .ok code => .ok { draft with code }
  | .error fault => .error (.jump fault)

def patchHere (draft : Draft) (index : Nat) : Except CompileError Draft :=
  draft.patch index draft.code.nextIndex

def resolve (draft : Draft) (name : Token) : Except CompileError Symbol :=
  match draft.symbols.lookup? name.lexeme with
  | some symbol => .ok symbol
  | none => .error (.undeclared name)

def resolveVariable (draft : Draft) (name : Token) : Except CompileError Symbol := do
  let symbol ← draft.resolve name
  if symbol.isProcedure then .error (.procedureAsVariable name) else .ok symbol

def resolveProcedure (draft : Draft) (name : Token) : Except CompileError Symbol := do
  let symbol ← draft.resolve name
  if symbol.isProcedure then .ok symbol else .error (.notProcedure name)

def checkFresh (draft : Draft) (name : Token) : Except CompileError Unit :=
  if draft.symbols.declaredHere name.lexeme then .error (.redeclared name draft.symbols.scope)
  else .ok ()

def enterCell (draft : Draft) (category : Category) (type : DataType) (name : Token) : Draft :=
  { draft with
    symbols := draft.symbols.declare
      { name := name.lexeme, type := some type, category, scope := draft.symbols.scope,
        address := draft.code.nextAddress }
    code := draft.code.allocate }

def declareVariable (type : DataType) (draft : Draft) (name : Token) : Except CompileError Draft := do
  draft.checkFresh name
  let entered := draft.enterCell .var type name
  .ok ({ entered with procedure := entered.procedure.map OpenProcedure.addLocal }.emitAt .reserve 1)

def declareParameter (type : DataType) (draft : Draft) (name : Token) : Except CompileError Draft := do
  draft.checkFresh name
  let entered := draft.enterCell .parameter type name
  .ok { entered with
    procedure := entered.procedure.map (·.addParameter type draft.code.nextAddress) }

def openProcedure (draft : Draft) (name : Token) : Except CompileError Draft := do
  draft.checkFresh name
  .ok { draft with
    symbols := draft.symbols.enterScope name.lexeme
    procedure := some { name := name.lexeme, entry := draft.code.nextIndex } }

/-- Ends the heading of the open procedure: the procedure becomes a global name, and its code begins
by storing the arguments, the last of which is on top of the stack. -/
def declareProcedure (draft : Draft) : Draft :=
  match draft.procedure with
  | none => draft
  | some procedure =>
    let declared := { draft with
      symbols := draft.symbols.declare
        { name := procedure.name, type := none, category := .procedure, scope := globalScope,
          address := procedure.entry, parameters := procedure.parameters.map (·.1) } }
    procedure.parameters.reverse.foldl (fun draft (_, address) => draft.emitAt .store address) declared

def closeProcedure (draft : Draft) : Draft :=
  match draft.procedure with
  | none => draft
  | some procedure =>
    let released := draft.emitAt .release (procedure.parameters.length + procedure.localCount : Nat)
    let returned := released.emit .ret
    { returned with symbols := returned.symbols.exitScope, procedure := none }

def emitRead (draft : Draft) (name : Token) : Except CompileError Draft := do
  let symbol ← draft.resolveVariable name
  .ok ((draft.emit .read).emitAt .store symbol.address)

def emitReads (draft : Draft) (names : List Token) : Except CompileError Draft :=
  names.foldlM emitRead draft

/-- Emits a call: the return address behind the call, the arguments, and the jump into the procedure. -/
def emitCall (draft : Draft) (name : Token) (procedure : Symbol) (arguments : List Token) :
    Except CompileError Draft := do
  if arguments.length ≠ procedure.parameters.length then
    .error (.argumentCount name procedure.parameters.length arguments.length)
  else
    let symbols ← arguments.mapM draft.resolveVariable
    let returning := draft.code.nextIndex
    let passed := symbols.foldl (fun draft symbol => draft.emitAt .pass symbol.address)
      (draft.emitJump .pushReturn)
    let patched ← passed.patch returning (passed.code.nextIndex + 1)
    .ok (patched.emitAt .call procedure.address)

end Draft

end Pascalet
