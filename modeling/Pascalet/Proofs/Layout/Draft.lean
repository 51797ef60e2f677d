import Pascalet.Proofs.Core.Resolve
import Pascalet.Proofs.Layout.Buffer

namespace Pascalet

/-- A procedure gets its address for its number. -/
def Symbol.place (entries : List Nat) (symbol : Symbol) : Symbol :=
  if symbol.isProcedure then { symbol with address := entries.getD symbol.address.toNat 0 }
  else symbol

def SymbolTable.place (entries : List Nat) (table : SymbolTable) : SymbolTable :=
  { table with symbols := table.symbols.map (Symbol.place entries) }

def SymbolTable.Natural (table : SymbolTable) : Prop :=
  ∀ symbol ∈ table.symbols, 0 ≤ symbol.address

@[simp]
theorem Symbol.name_place (entries : List Nat) (symbol : Symbol) :
    (symbol.place entries).name = symbol.name := by
  unfold place
  split <;> rfl

@[simp]
theorem Symbol.scope_place (entries : List Nat) (symbol : Symbol) :
    (symbol.place entries).scope = symbol.scope := by
  unfold place
  split <;> rfl

@[simp]
theorem Symbol.category_place (entries : List Nat) (symbol : Symbol) :
    (symbol.place entries).category = symbol.category := by
  unfold place
  split <;> rfl

@[simp]
theorem Symbol.isProcedure_place (entries : List Nat) (symbol : Symbol) :
    (symbol.place entries).isProcedure = symbol.isProcedure := by
  unfold place
  split <;> rfl

@[simp]
theorem Symbol.parameters_place (entries : List Nat) (symbol : Symbol) :
    (symbol.place entries).parameters = symbol.parameters := by
  unfold place
  split <;> rfl

theorem Symbol.place_of_not_procedure {entries : List Nat} {symbol : Symbol}
    (other : symbol.isProcedure = false) : symbol.place entries = symbol := by
  simp [place, other]

theorem Symbol.address_place {entries : List Nat} {symbol : Symbol}
    (procedure : symbol.isProcedure = true) :
    (symbol.place entries).address = entries.getD symbol.address.toNat 0 := by
  simp [place, procedure]

namespace SymbolTable

variable {table : SymbolTable} {entries : List Nat}

@[simp]
theorem scope_place : (table.place entries).scope = table.scope := rfl

theorem findIn?_place (scope name : String) :
    (table.place entries).findIn? scope name =
      (table.findIn? scope name).map (Symbol.place entries) := by
  have test : (fun symbol : Symbol => symbol.name == name && symbol.scope == scope) ∘
      Symbol.place entries = fun symbol => symbol.name == name && symbol.scope == scope := by
    funext symbol
    simp only [Function.comp_apply, Symbol.name_place, Symbol.scope_place]
  simp only [findIn?, place, List.find?_map, test]

theorem lookup?_place (name : String) :
    (table.place entries).lookup? name = (table.lookup? name).map (Symbol.place entries) := by
  simp only [lookup?, findIn?_place, scope_place]
  cases table.findIn? table.scope name <;> rfl

@[simp]
theorem declaredHere_place (name : String) :
    (table.place entries).declaredHere name = table.declaredHere name := by
  simp [declaredHere, findIn?_place]

end SymbolTable

namespace Draft

def extend (draft : Draft) (code : List Instruction) (waiting : List Nat) : Draft :=
  { draft with code := draft.code.extend code waiting }

/-- A draft whose names are those of a table, with procedures at `entries`, and whose waiting jumps
are its own. -/
structure Sound (draft : Draft) (table : SymbolTable) (entries : List Nat) : Prop where
  placed : draft.symbols = table.place entries
  natural : table.Natural
  inside : draft.code.PendingInside

variable {draft : Draft} {table : SymbolTable} {entries : List Nat}
  {code more : List Instruction} {waiting others : List Nat}

@[simp]
theorem code_extend : (draft.extend code waiting).code = draft.code.extend code waiting := rfl

@[simp]
theorem extend_nil : draft.extend [] [] = draft := by
  simp [extend]

@[simp]
theorem extend_extend : (draft.extend code waiting).extend more others =
    draft.extend (code ++ more) (waiting ++ others) := by
  simp [extend]

theorem extend_inj (same : draft.extend code waiting = draft.extend more others) : code = more := by
  have instructions := congrArg (fun extended : Draft => extended.code.instructions) same
  simp only [code_extend, Buffer.extend] at instructions
  exact List.toArray_inj (Array.append_right_inj _ |>.mp instructions)

theorem emit_eq_extend (opcode : Opcode) (argument : Argument) :
    draft.emit opcode argument = draft.extend [⟨opcode, argument⟩] [] := by
  simp [emit, extend, Buffer.emit_eq_extend]

theorem emitAt_eq_extend (opcode : Opcode) (argument : Int) :
    draft.emitAt opcode argument = draft.extend [⟨opcode, .integer argument⟩] [] :=
  emit_eq_extend opcode (.integer argument)

theorem emitJump_eq_extend (opcode : Opcode) :
    draft.emitJump opcode =
      draft.extend [⟨opcode, .integer Buffer.placeholder⟩] [draft.code.nextIndex] := by
  simp [emitJump, extend, Buffer.emitJump_eq_extend]

theorem patch_extend (inside : draft.code.PendingInside) (code : List Instruction)
    (jump : Instruction) (more : List Instruction) {index : Nat} (target : Nat)
    (placed : index = draft.code.nextIndex + code.length) (awaited : index ∈ waiting) :
    (draft.extend (code ++ jump :: more) waiting).patch index target =
      .ok (draft.extend (code ++ ⟨jump.opcode, .integer target⟩ :: more)
        (waiting.erase index)) := by
  simp only [patch, code_extend, Buffer.patch_extend inside code jump more target placed awaited]
  rfl

theorem Sound.extend (sound : draft.Sound table entries) (code : List Instruction) :
    (draft.extend code []).Sound table entries :=
  ⟨sound.placed, sound.natural, sound.inside.extend (by simp)⟩

theorem Sound.emitJump (sound : draft.Sound table entries) (opcode : Opcode) :
    (draft.emitJump opcode).Sound table entries := by
  rw [emitJump_eq_extend]
  exact ⟨sound.placed, sound.natural, sound.inside.extend (by simp [Buffer.nextIndex])⟩

@[simp]
theorem nextIndex_emitJump (opcode : Opcode) :
    (draft.emitJump opcode).code.nextIndex = draft.code.nextIndex + 1 := by
  simp [emitJump_eq_extend]

theorem resolve_eq (sound : draft.Sound table entries) (name : Token) :
    draft.resolve name = (table.denoted name).map (Symbol.place entries) := by
  simp only [resolve, sound.placed, SymbolTable.lookup?_place, SymbolTable.denoted]
  cases table.lookup? name.lexeme <;> rfl

theorem mem_of_denoted {name : Token} {symbol : Symbol}
    (found : table.denoted name = .ok symbol) : symbol ∈ table.symbols := by
  unfold SymbolTable.denoted at found
  split at found
  next lookup =>
    cases found
    exact SymbolTable.mem_of_lookup? lookup
  next => cases found

theorem resolveVariable_address (sound : draft.Sound table entries) (name : Token) :
    (draft.resolveVariable name).map Symbol.address =
      (table.cell name).map fun (address : Nat) => (address : Int) := by
  rw [resolveVariable, resolve_eq sound, SymbolTable.cell]
  cases found : table.denoted name with
  | error error => rfl
  | ok symbol =>
    have natural := sound.natural symbol (mem_of_denoted found)
    simp only [Except.map, bind, Except.bind, Symbol.isProcedure_place]
    cases procedure : symbol.isProcedure with
    | true => rfl
    | false =>
      simp only [Bool.false_eq_true, ↓reduceIte, Symbol.place_of_not_procedure procedure]
      rw [Int.toNat_of_nonneg natural]

theorem resolveVariable_bind {α : Type} (sound : draft.Sound table entries) (name : Token)
    (use : Int → Except CompileError α) :
    (draft.resolveVariable name >>= fun symbol => use symbol.address) =
      table.cell name >>= fun address => use (address : Nat) := by
  have same := resolveVariable_address sound name
  cases left : draft.resolveVariable name <;> cases right : table.cell name <;>
    simp_all [Except.map, bind, Except.bind]

theorem mapM_resolveVariable_address (sound : draft.Sound table entries) (arguments : List Token) :
    (arguments.mapM draft.resolveVariable).map (List.map Symbol.address) =
      (arguments.mapM table.cell).map (List.map fun (address : Nat) => (address : Int)) := by
  induction arguments with
  | nil => rfl
  | cons name rest ih =>
    have first := resolveVariable_address sound name
    simp only [List.mapM_cons]
    cases left : draft.resolveVariable name <;> cases right : table.cell name <;>
      cases lefts : rest.mapM draft.resolveVariable <;> cases rights : rest.mapM table.cell <;>
      simp_all [Except.map, bind, Except.bind, pure, Except.pure]

theorem foldl_emitAt_eq_extend (draft : Draft) (opcode : Opcode) (addresses : List Int) :
    addresses.foldl (fun draft address => draft.emitAt opcode address) draft =
      draft.extend (addresses.map fun address => ⟨opcode, .integer address⟩) [] := by
  induction addresses generalizing draft with
  | nil => simp
  | cons address rest ih =>
    rw [List.foldl_cons, ih, emitAt_eq_extend, extend_extend]
    rfl

end Draft

end Pascalet
