import Pascalet.Compiler.Draft

namespace Pascalet

/-- Different names stay different, and the name of the global scope keeps its meaning. -/
structure Renaming where
  name : String → String
  line : Nat → Nat
  injective : ∀ {first second : String}, name first = name second → first = second
  global : name globalScope = globalScope

variable (new : Renaming)

@[simp]
theorem Renaming.beq_name (first second : String) :
    (new.name first == new.name second) = (first == second) := by
  rw [Bool.eq_iff_iff, beq_iff_eq, beq_iff_eq]
  exact ⟨new.injective, congrArg new.name⟩

def Token.asName (token : Token) : Token :=
  ⟨token.kind, new.name token.lexeme, new.line token.line⟩

def Token.rename (token : Token) : Token :=
  if token.kind = .identifier then token.asName new
  else { token with line := new.line token.line }

@[simp]
theorem Token.kind_rename (token : Token) : (token.rename new).kind = token.kind := by
  unfold rename
  split <;> rfl

theorem Token.rename_of_identifier {token : Token} (isName : token.kind = .identifier) :
    token.rename new = token.asName new := if_pos isName

theorem Token.lexeme_rename {token : Token} (other : token.kind ≠ .identifier) :
    (token.rename new).lexeme = token.lexeme := by
  rw [rename, if_neg other]

def Symbol.rename (name : String → String) (symbol : Symbol) : Symbol :=
  { symbol with name := name symbol.name, scope := name symbol.scope }

def SymbolTable.rename (name : String → String) (table : SymbolTable) : SymbolTable :=
  ⟨table.symbols.map (Symbol.rename name), name table.scope⟩

namespace SymbolTable

variable {new} {table : SymbolTable}

theorem findIn?_rename (scope name : String) :
    (table.rename new.name).findIn? (new.name scope) (new.name name) =
      (table.findIn? scope name).map (Symbol.rename new.name) := by
  have test : (fun symbol : Symbol => symbol.name == new.name name &&
      symbol.scope == new.name scope) ∘ Symbol.rename new.name =
        fun symbol => symbol.name == name && symbol.scope == scope := by
    funext symbol
    simp [Symbol.rename]
  simp only [findIn?, rename, List.find?_map, test]

theorem lookup?_rename (name : String) :
    (table.rename new.name).lookup? (new.name name) =
      (table.lookup? name).map (Symbol.rename new.name) := by
  have inGlobal := @findIn?_rename new table globalScope name
  rw [new.global] at inGlobal
  have scope : (table.rename new.name).scope = new.name table.scope := rfl
  rw [lookup?, lookup?, scope, findIn?_rename, inGlobal]
  cases table.findIn? table.scope name <;> rfl

theorem declaredHere_rename (name : String) :
    (table.rename new.name).declaredHere (new.name name) = table.declaredHere name := by
  have scope : (table.rename new.name).scope = new.name table.scope := rfl
  rw [declaredHere, scope, findIn?_rename, Option.isSome_map, declaredHere]

@[simp]
theorem rename_id (table : SymbolTable) : table.rename id = table := by
  have each : Symbol.rename id = id := rfl
  rw [rename, each, List.map_id]
  rfl

theorem declare_rename (symbol : Symbol) :
    (table.declare symbol).rename new.name =
      (table.rename new.name).declare (symbol.rename new.name) := by
  simp [declare, rename]

end SymbolTable

def CompileError.rename : CompileError → CompileError
  | invalidCharacter failure => invalidCharacter ⟨failure.character, new.line failure.line⟩
  | unexpected expectation found => unexpected expectation (found.rename new)
  | redeclared name scope => redeclared (name.asName new) (new.name scope)
  | undeclared name => undeclared (name.asName new)
  | procedureAsVariable name => procedureAsVariable (name.asName new)
  | notProcedure name => notProcedure (name.asName new)
  | argumentCount name expected actual => argumentCount (name.asName new) expected actual
  | jump fault => jump fault

def Renaming.result {α β : Type} (use : α → β) : Except CompileError α → Except CompileError β
  | .ok value => .ok (use value)
  | .error error => .error (error.rename new)

namespace Renaming

variable {new} {α β γ δ : Type} {use : α → β} {useAfter : γ → δ}

theorem result_bind {first : Except CompileError α} {firstAfter : Except CompileError β}
    {next : α → Except CompileError γ} {nextAfter : β → Except CompileError δ}
    (same : firstAfter = new.result use first)
    (rest : ∀ value, nextAfter (use value) = new.result useAfter (next value)) :
    (firstAfter >>= nextAfter) = new.result useAfter (first >>= next) := by
  subst same
  cases first with
  | error error => rfl
  | ok value => exact rest value

theorem result_map {first : Except CompileError α} {firstAfter : Except CompileError β}
    {next : α → γ} {nextAfter : β → δ} (same : firstAfter = new.result use first)
    (rest : ∀ value, nextAfter (use value) = useAfter (next value)) :
    firstAfter.map nextAfter = new.result useAfter (first.map next) := by
  subst same
  cases first with
  | error error => rfl
  | ok value => exact congrArg Except.ok (rest value)

theorem result_foldlM {step : α → γ → Except CompileError α}
    {stepAfter : β → δ → Except CompileError β}
    (each : ∀ reached item, stepAfter (use reached) (useAfter item) =
      new.result use (step reached item)) (items : List γ) (start : α) :
    (items.map useAfter).foldlM stepAfter (use start) =
      new.result use (items.foldlM step start) := by
  induction items generalizing start with
  | nil => rfl
  | cons item rest ih =>
    rw [List.map_cons, List.foldlM_cons, List.foldlM_cons]
    exact result_bind (each start item) ih

theorem result_mapM {step : α → Except CompileError γ} {stepAfter : β → Except CompileError δ}
    (each : ∀ item, stepAfter (use item) = new.result useAfter (step item)) (items : List α) :
    (items.map use).mapM stepAfter = new.result (List.map useAfter) (items.mapM step) := by
  induction items with
  | nil => rfl
  | cons item rest ih =>
    rw [List.map_cons, List.mapM_cons, List.mapM_cons]
    exact result_bind (each item) fun value => result_bind ih fun values => rfl

end Renaming

def OpenProcedure.rename (procedure : OpenProcedure) : OpenProcedure :=
  { procedure with name := new.name procedure.name }

def Draft.rename (draft : Draft) : Draft :=
  { name := new.name draft.name
    symbols := draft.symbols.rename new.name
    code := draft.code
    procedure := draft.procedure.map (OpenProcedure.rename new) }

namespace Draft

variable {new} (draft : Draft)

theorem emitJump_rename (opcode : Opcode) :
    (draft.rename new).emitJump opcode = (draft.emitJump opcode).rename new := rfl

theorem patch_rename (index target : Nat) :
    (draft.rename new).patch index target =
      new.result (rename new) (draft.patch index target) := by
  have code : (draft.rename new).code = draft.code := rfl
  rw [patch, patch, code]
  cases draft.code.patch index target <;> rfl

theorem patchHere_rename (index : Nat) :
    (draft.rename new).patchHere index =
      new.result (rename new) (draft.patchHere index) :=
  draft.patch_rename index draft.code.nextIndex

theorem resolve_rename (name : Token) :
    (draft.rename new).resolve (name.asName new) =
      new.result (Symbol.rename new.name) (draft.resolve name) := by
  have found : (draft.rename new).symbols.lookup? (name.asName new).lexeme =
      (draft.symbols.lookup? name.lexeme).map (Symbol.rename new.name) :=
    SymbolTable.lookup?_rename name.lexeme
  rw [resolve, resolve, found]
  cases draft.symbols.lookup? name.lexeme <;> rfl

theorem resolveVariable_rename (name : Token) :
    (draft.rename new).resolveVariable (name.asName new) =
      new.result (Symbol.rename new.name) (draft.resolveVariable name) := by
  apply Renaming.result_bind (draft.resolve_rename name)
  intro symbol
  have same : (symbol.rename new.name).isProcedure = symbol.isProcedure := rfl
  rw [same]
  cases symbol.isProcedure <;> rfl

theorem resolveProcedure_rename (name : Token) :
    (draft.rename new).resolveProcedure (name.asName new) =
      new.result (Symbol.rename new.name) (draft.resolveProcedure name) := by
  apply Renaming.result_bind (draft.resolve_rename name)
  intro symbol
  have same : (symbol.rename new.name).isProcedure = symbol.isProcedure := rfl
  rw [same]
  cases symbol.isProcedure <;> rfl

theorem checkFresh_rename (name : Token) :
    (draft.rename new).checkFresh (name.asName new) =
      new.result id (draft.checkFresh name) := by
  have same : (draft.rename new).symbols.declaredHere (name.asName new).lexeme =
      draft.symbols.declaredHere name.lexeme := SymbolTable.declaredHere_rename name.lexeme
  rw [checkFresh, checkFresh, same]
  cases draft.symbols.declaredHere name.lexeme <;> rfl

theorem enterCell_rename (category : Category) (type : DataType) (name : Token) :
    (draft.rename new).enterCell category type (name.asName new) =
      (draft.enterCell category type name).rename new := by
  simp only [enterCell, rename, SymbolTable.declare_rename]
  rfl

theorem declareVariable_rename (type : DataType) (name : Token) :
    declareVariable type (draft.rename new) (name.asName new) =
      new.result (rename new) (draft.declareVariable type name) := by
  apply Renaming.result_bind (draft.checkFresh_rename name)
  intro _
  rw [enterCell_rename]
  cases procedure : (draft.enterCell .var type name).procedure with
  | none => simp [rename, procedure, Renaming.result, emitAt, emit]
  | some opened =>
    simp [rename, procedure, Renaming.result, emitAt, emit, OpenProcedure.addLocal,
      OpenProcedure.rename]

theorem declareParameter_rename (type : DataType) (name : Token) :
    declareParameter type (draft.rename new) (name.asName new) =
      new.result (rename new) (draft.declareParameter type name) := by
  apply Renaming.result_bind (draft.checkFresh_rename name)
  intro _
  rw [enterCell_rename]
  cases procedure : (draft.enterCell .parameter type name).procedure with
  | none => simp [rename, procedure, Renaming.result]
  | some opened =>
    simp [rename, procedure, Renaming.result, OpenProcedure.addParameter, OpenProcedure.rename]

theorem openProcedure_rename (name : Token) :
    (draft.rename new).openProcedure (name.asName new) =
      new.result (rename new) (draft.openProcedure name) :=
  Renaming.result_bind (draft.checkFresh_rename name) fun _ => rfl

theorem foldl_emitAt_rename {α : Type} (opcode : Opcode) (address : α → Int) (items : List α) :
    items.foldl (fun draft item => draft.emitAt opcode (address item)) (draft.rename new) =
      (items.foldl (fun draft item => draft.emitAt opcode (address item)) draft).rename new := by
  induction items generalizing draft with
  | nil => rfl
  | cons item rest ih => exact ih (draft.emitAt opcode (address item))

theorem declareProcedure_rename :
    (draft.rename new).declareProcedure = draft.declareProcedure.rename new := by
  cases opened : draft.procedure with
  | none => simp [declareProcedure, rename, opened]
  | some procedure =>
    have renamed : (draft.rename new).procedure = some (procedure.rename new) := by
      simp [rename, opened]
    have symbols := @SymbolTable.declare_rename new draft.symbols
      { name := procedure.name, type := none, category := .procedure, scope := globalScope,
        address := procedure.entry, parameters := procedure.parameters.map (·.1) }
    simp only [declareProcedure, opened, renamed]
    rw [← foldl_emitAt_rename]
    simp only [rename, symbols, Symbol.rename, new.global]
    rfl

theorem closeProcedure_rename :
    (draft.rename new).closeProcedure = draft.closeProcedure.rename new := by
  cases opened : draft.procedure with
  | none => simp [closeProcedure, rename, opened]
  | some procedure =>
    have renamed : (draft.rename new).procedure = some (procedure.rename new) := by
      simp [rename, opened]
    simp only [closeProcedure, opened, renamed]
    simp [rename, emitAt, emit, SymbolTable.exitScope, SymbolTable.rename, OpenProcedure.rename,
      new.global]

theorem emitRead_rename (name : Token) :
    (draft.rename new).emitRead (name.asName new) =
      new.result (rename new) (draft.emitRead name) :=
  Renaming.result_bind (draft.resolveVariable_rename name) fun _ => rfl

theorem emitReads_rename (names : List Token) :
    (draft.rename new).emitReads (names.map (Token.asName new)) =
      new.result (rename new) (draft.emitReads names) :=
  Renaming.result_foldlM emitRead_rename names draft

theorem emitCall_rename (name : Token) (procedure : Symbol) (arguments : List Token) :
    (draft.rename new).emitCall (name.asName new) (procedure.rename new.name)
        (arguments.map (Token.asName new)) =
      new.result (rename new) (draft.emitCall name procedure arguments) := by
  have expected : (procedure.rename new.name).parameters.length = procedure.parameters.length := rfl
  rw [emitCall, emitCall, List.length_map, expected]
  split
  · rfl
  · apply Renaming.result_bind (Renaming.result_mapM draft.resolveVariable_rename arguments)
    intro symbols
    have passed : (symbols.map (Symbol.rename new.name)).foldl
        (fun draft symbol => draft.emitAt .pass symbol.address)
        ((draft.rename new).emitJump .pushReturn) =
      (symbols.foldl (fun draft symbol => draft.emitAt .pass symbol.address)
        (draft.emitJump .pushReturn)).rename new := by
      rw [List.foldl_map, emitJump_rename]
      exact foldl_emitAt_rename _ .pass Symbol.address symbols
    rw [passed]
    exact Renaming.result_bind (patch_rename _ _ _) fun _ => rfl

end Draft

end Pascalet
