import Mathlib.Data.List.Basic
import Pascalet.Compiler.Draft

namespace Pascalet

/-- Two results that go together: related values, or errors that are the same unless they are about
jumps. -/
def Alike {α β : Type} (related : α → β → Prop) :
    Except CompileError α → Except CompileError β → Prop
  | .ok value, .ok other => related value other
  | .error error, .error other => error.line?.isSome = true → other = error
  | _, _ => False

namespace Alike

variable {α β γ δ : Type} {related : α → β → Prop} {relatedAfter : γ → δ → Prop}
  {first : Except CompileError α} {second : Except CompileError β}

theorem cases (alike : Alike related first second) :
    (∃ value other, first = .ok value ∧ second = .ok other ∧ related value other) ∨
      ∃ error other, first = .error error ∧ second = .error other ∧
        (error.line?.isSome = true → other = error) := by
  cases first with
  | error error =>
    cases second with
    | error other => exact .inr ⟨error, other, rfl, rfl, alike⟩
    | ok other => exact alike.elim
  | ok value =>
    cases second with
    | error other => exact alike.elim
    | ok other => exact .inl ⟨value, other, rfl, rfl, alike⟩

theorem bind {next : α → Except CompileError γ} {nextToo : β → Except CompileError δ}
    (alike : Alike related first second)
    (rest : ∀ value other, related value other → Alike relatedAfter (next value) (nextToo other)) :
    Alike relatedAfter (first >>= next) (second >>= nextToo) := by
  rcases alike.cases with ⟨value, other, rfl, rfl, holds⟩ | ⟨error, other, rfl, rfl, same⟩
  · exact rest value other holds
  · exact same

theorem map {next : α → γ} {nextToo : β → δ} (alike : Alike related first second)
    (rest : ∀ value other, related value other → relatedAfter (next value) (nextToo other)) :
    Alike relatedAfter (first.map next) (second.map nextToo) := by
  rcases alike.cases with ⟨value, other, rfl, rfl, holds⟩ | ⟨error, other, rfl, rfl, same⟩
  · exact rest value other holds
  · exact same

theorem same (error : CompileError) : Alike related (.error error) (.error error) :=
  fun _ => rfl

theorem foldlM {step : α → γ → Except CompileError α} {stepToo : β → δ → Except CompileError β}
    (change : γ → δ) (each : ∀ reached other item, related reached other →
      Alike related (step reached item) (stepToo other (change item)))
    (items : List γ) {start : α} {startToo : β} (begun : related start startToo) :
    Alike related (items.foldlM step start) ((items.map change).foldlM stepToo startToo) := by
  induction items generalizing start startToo with
  | nil => exact begun
  | cons item rest ih =>
    rw [List.map_cons, List.foldlM_cons, List.foldlM_cons]
    exact (each start startToo item begun).bind fun _ _ => ih

theorem foldlM_same {step : α → γ → Except CompileError α} {stepToo : β → γ → Except CompileError β}
    (each : ∀ reached other item, related reached other →
      Alike related (step reached item) (stepToo other item))
    (items : List γ) {start : α} {startToo : β} (begun : related start startToo) :
    Alike related (items.foldlM step start) (items.foldlM stepToo startToo) := by
  have alike := foldlM id each items begun
  rwa [List.map_id] at alike

theorem mapM {step : α → Except CompileError β} {stepToo : α → Except CompileError β}
    (each : ∀ item, Alike (fun value found => found = value) (step item) (stepToo item))
    (items : List α) :
    Alike (fun values found => found = values) (items.mapM step) (items.mapM stepToo) := by
  induction items with
  | nil => rfl
  | cons item rest ih =>
    rw [List.mapM_cons, List.mapM_cons]
    refine (each item).bind ?_
    rintro value _ rfl
    refine ih.bind ?_
    rintro values _ rfl
    rfl

end Alike

namespace Buffer

/-- A buffer like another one, behind so many jumps of others that wait. The instructions are not
compared. -/
structure Behind (jumps : Nat) (buffer other : Buffer) : Prop where
  size : other.size = jumps + buffer.size
  nextAddress : other.nextAddress = buffer.nextAddress
  pending : other.pending = List.range jumps ++ buffer.pending.map (jumps + ·)

variable {jumps : Nat} {buffer other : Buffer}

theorem Behind.emit (behind : buffer.Behind jumps other) (opcode : Opcode)
    (argument argumentToo : Argument) :
    (buffer.emit opcode argument).Behind jumps (other.emit opcode argumentToo) where
  size := by
    have sizes := behind.size
    simp only [Buffer.size, Buffer.emit, Array.size_push] at sizes ⊢
    omega
  nextAddress := behind.nextAddress
  pending := behind.pending

theorem Behind.emitJump (behind : buffer.Behind jumps other) (opcode : Opcode) :
    (buffer.emitJump opcode).Behind jumps (other.emitJump opcode) where
  size := (behind.emit opcode _ _).size
  nextAddress := behind.nextAddress
  pending := by
    have next : other.nextIndex = jumps + buffer.nextIndex := behind.size
    simp [Buffer.emitJump, behind.pending, next]

theorem Behind.allocate (behind : buffer.Behind jumps other) :
    buffer.allocate.Behind jumps other.allocate where
  size := behind.size
  nextAddress := congrArg (· + 1) behind.nextAddress
  pending := behind.pending

theorem Behind.patch (behind : buffer.Behind jumps other) (index : Nat) (target targetToo : Int) :
    (∃ patched patchedToo, buffer.patch index target = .ok patched ∧
      other.patch (jumps + index : Nat) targetToo = .ok patchedToo ∧ patched.Behind jumps patchedToo) ∨
    ∃ fault faultToo, buffer.patch index target = .error fault ∧
      other.patch (jumps + index : Nat) targetToo = .error faultToo := by
  have same : jumps + index ∈ other.pending ↔ index ∈ buffer.pending := by
    rw [behind.pending, List.mem_append, List.mem_range, List.mem_map]
    constructor
    · rintro (below | ⟨found, member, sum⟩)
      · omega
      · rwa [← Nat.add_left_cancel sum]
    · exact fun member => .inr ⟨index, member, rfl⟩
  by_cases awaited : index ∈ buffer.pending
  · left
    have awaitedToo := same.mpr awaited
    simp only [Buffer.patch, Int.natCast_nonneg, Int.toNat_natCast, awaited, awaitedToo, and_self,
      ↓reduceIte]
    refine ⟨_, _, rfl, rfl, ?_, behind.nextAddress, ?_⟩
    · simpa [Buffer.size] using behind.size
    · have own : jumps + index ∉ List.range jumps := by simp
      have injective : Function.Injective (jumps + ·) := fun _ _ => Nat.add_left_cancel
      rw [behind.pending, List.erase_append_right _ own, List.map_erase injective]
  · right
    have notAwaited : jumps + index ∉ other.pending := fun found => awaited (same.mp found)
    simp only [Buffer.patch, Int.toNat_natCast, awaited, notAwaited, and_false, ↓reduceIte]
    exact ⟨_, _, rfl, rfl⟩

end Buffer

def Symbol.behind (jumps : Nat) (symbol : Symbol) : Symbol :=
  if symbol.isProcedure then { symbol with address := (jumps : Int) + symbol.address } else symbol

def SymbolTable.behind (jumps : Nat) (table : SymbolTable) : SymbolTable :=
  { table with symbols := table.symbols.map (Symbol.behind jumps) }

def OpenProcedure.behind (jumps : Nat) (procedure : OpenProcedure) : OpenProcedure :=
  { procedure with entry := jumps + procedure.entry }

namespace Symbol

variable (jumps : Nat) (symbol : Symbol)

@[simp]
theorem name_behind : (symbol.behind jumps).name = symbol.name := by
  unfold behind
  split <;> rfl

@[simp]
theorem scope_behind : (symbol.behind jumps).scope = symbol.scope := by
  unfold behind
  split <;> rfl

@[simp]
theorem isProcedure_behind : (symbol.behind jumps).isProcedure = symbol.isProcedure := by
  unfold behind
  split <;> rfl

@[simp]
theorem parameters_behind : (symbol.behind jumps).parameters = symbol.parameters := by
  unfold behind
  split <;> rfl

theorem behind_of_not_procedure {symbol : Symbol} (other : symbol.isProcedure = false) :
    symbol.behind jumps = symbol := by
  simp [behind, other]

end Symbol

namespace SymbolTable

variable (jumps : Nat) (table : SymbolTable)

theorem findIn?_behind (scope name : String) :
    (table.behind jumps).findIn? scope name = (table.findIn? scope name).map (Symbol.behind jumps) := by
  have test : (fun symbol : Symbol => symbol.name == name && symbol.scope == scope) ∘
      Symbol.behind jumps = fun symbol => symbol.name == name && symbol.scope == scope := by
    funext symbol
    simp
  simp only [findIn?, behind, List.find?_map, test]

theorem lookup?_behind (name : String) :
    (table.behind jumps).lookup? name = (table.lookup? name).map (Symbol.behind jumps) := by
  have scope : (table.behind jumps).scope = table.scope := rfl
  rw [lookup?, lookup?, scope, findIn?_behind, findIn?_behind]
  cases table.findIn? table.scope name <;> rfl

theorem declaredHere_behind (name : String) :
    (table.behind jumps).declaredHere name = table.declaredHere name := by
  have scope : (table.behind jumps).scope = table.scope := rfl
  rw [declaredHere, scope, findIn?_behind, Option.isSome_map, declaredHere]

theorem declare_behind (symbol : Symbol) :
    (table.declare symbol).behind jumps = (table.behind jumps).declare (symbol.behind jumps) := by
  simp [declare, behind]

end SymbolTable

namespace Draft

structure Behind (jumps : Nat) (draft other : Draft) : Prop where
  symbols : other.symbols = draft.symbols.behind jumps
  code : draft.code.Behind jumps other.code
  procedure : other.procedure = draft.procedure.map (OpenProcedure.behind jumps)

variable {jumps : Nat} {draft other : Draft}

theorem Behind.nextIndex (behind : draft.Behind jumps other) :
    other.code.nextIndex = jumps + draft.code.nextIndex :=
  behind.code.size

theorem Behind.emit (behind : draft.Behind jumps other) (opcode : Opcode)
    (argument argumentToo : Argument) :
    (draft.emit opcode argument).Behind jumps (other.emit opcode argumentToo) :=
  { behind with code := behind.code.emit opcode argument argumentToo }

theorem Behind.emitJump (behind : draft.Behind jumps other) (opcode : Opcode) :
    (draft.emitJump opcode).Behind jumps (other.emitJump opcode) :=
  { behind with code := behind.code.emitJump opcode }

theorem Behind.patch (behind : draft.Behind jumps other) (index target targetToo : Nat) :
    Alike (Behind jumps) (draft.patch index target) (other.patch (jumps + index) targetToo) := by
  unfold Draft.patch
  rcases behind.code.patch index target targetToo with
    ⟨patched, patchedToo, done, doneToo, code⟩ | ⟨fault, faultToo, failed, failedToo⟩
  · rw [done, doneToo]
    exact { behind with code }
  · rw [failed, failedToo]
    nofun

theorem Behind.patchHere (behind : draft.Behind jumps other) (index : Nat) :
    Alike (Behind jumps) (draft.patchHere index) (other.patchHere (jumps + index)) :=
  behind.patch index draft.code.nextIndex other.code.nextIndex

theorem Behind.resolve (behind : draft.Behind jumps other) (name : Token) :
    Alike (fun symbol found => found = symbol.behind jumps) (draft.resolve name)
      (other.resolve name) := by
  rw [Draft.resolve, Draft.resolve, behind.symbols, SymbolTable.lookup?_behind]
  cases draft.symbols.lookup? name.lexeme with
  | none => exact .same _
  | some symbol => rfl

theorem Behind.resolveVariable (behind : draft.Behind jumps other) (name : Token) :
    Alike (fun symbol found => found = symbol) (draft.resolveVariable name)
      (other.resolveVariable name) := by
  refine (behind.resolve name).bind ?_
  rintro symbol _ rfl
  rw [Symbol.isProcedure_behind]
  cases kind : symbol.isProcedure with
  | true => exact .same _
  | false => exact Symbol.behind_of_not_procedure jumps kind

theorem Behind.resolveProcedure (behind : draft.Behind jumps other) (name : Token) :
    Alike (fun symbol found => found = symbol.behind jumps) (draft.resolveProcedure name)
      (other.resolveProcedure name) := by
  refine (behind.resolve name).bind ?_
  rintro symbol _ rfl
  rw [Symbol.isProcedure_behind]
  cases symbol.isProcedure with
  | true => rfl
  | false => exact .same _

theorem Behind.checkFresh (behind : draft.Behind jumps other) (name : Token) :
    Alike (fun _ _ => True) (draft.checkFresh name) (other.checkFresh name) := by
  have scope : other.symbols.scope = draft.symbols.scope := by rw [behind.symbols]; rfl
  rw [Draft.checkFresh, Draft.checkFresh, scope, behind.symbols, SymbolTable.declaredHere_behind]
  split
  · exact .same _
  · exact True.intro

theorem Behind.enterCell (behind : draft.Behind jumps other) (category : Category)
    (cell : category ≠ .procedure) (type : DataType) (name : Token) :
    (draft.enterCell category type name).Behind jumps (other.enterCell category type name) where
  symbols := by
    have plain (symbol : Symbol) (same : symbol.category = category) :
        symbol.behind jumps = symbol := by
      apply Symbol.behind_of_not_procedure
      rw [Symbol.isProcedure, same]
      exact beq_false_of_ne cell
    simp only [Draft.enterCell, behind.symbols, behind.code.nextAddress, SymbolTable.declare_behind]
    rw [plain _ rfl]
    rfl
  code := behind.code.allocate
  procedure := behind.procedure

theorem Behind.declareVariable (behind : draft.Behind jumps other) (type : DataType) (name : Token) :
    Alike (Behind jumps) (draft.declareVariable type name) (other.declareVariable type name) := by
  refine (behind.checkFresh name).bind fun _ _ _ => ?_
  have entered := behind.enterCell .var (by decide) type name
  have counted : Behind jumps { draft.enterCell .var type name with
        procedure := (draft.enterCell .var type name).procedure.map OpenProcedure.addLocal }
      { other.enterCell .var type name with
        procedure := (other.enterCell .var type name).procedure.map OpenProcedure.addLocal } := by
    refine { entered with procedure := ?_ }
    rw [entered.procedure]
    cases (draft.enterCell .var type name).procedure <;> rfl
  exact counted.emit .reserve _ _

theorem Behind.declareParameter (behind : draft.Behind jumps other) (type : DataType) (name : Token) :
    Alike (Behind jumps) (draft.declareParameter type name) (other.declareParameter type name) := by
  refine (behind.checkFresh name).bind fun _ _ _ => ?_
  have entered := behind.enterCell .parameter (by decide) type name
  refine { entered with procedure := ?_ }
  rw [entered.procedure, behind.code.nextAddress]
  cases (draft.enterCell .parameter type name).procedure <;> rfl

theorem Behind.openProcedure (behind : draft.Behind jumps other) (name : Token) :
    Alike (Behind jumps) (draft.openProcedure name) (other.openProcedure name) := by
  refine (behind.checkFresh name).bind fun _ _ _ => ?_
  refine ⟨?_, behind.code, ?_⟩
  · simp only [behind.symbols]
    rfl
  · simp only [behind.nextIndex]
    rfl

theorem Behind.emitEach {α : Type} (behind : draft.Behind jumps other) (opcode : Opcode)
    (address : α → Int) (items : List α) :
    (items.foldl (fun draft item => draft.emitAt opcode (address item)) draft).Behind jumps
      (items.foldl (fun draft item => draft.emitAt opcode (address item)) other) := by
  induction items generalizing draft other with
  | nil => exact behind
  | cons item rest ih => exact ih (behind.emit opcode _ _)

theorem Behind.declareProcedure (behind : draft.Behind jumps other) :
    draft.declareProcedure.Behind jumps other.declareProcedure := by
  have procedures := behind.procedure
  cases opened : draft.procedure with
  | none =>
    rw [opened] at procedures
    simpa only [Draft.declareProcedure, opened, procedures, Option.map_none] using behind
  | some procedure =>
    rw [opened] at procedures
    simp only [Draft.declareProcedure, opened, procedures, Option.map_some]
    apply Behind.emitEach
    refine { behind with symbols := ?_, procedure := rfl }
    simp only [behind.symbols, SymbolTable.declare_behind]
    rfl

theorem Behind.closeProcedure (behind : draft.Behind jumps other) :
    draft.closeProcedure.Behind jumps other.closeProcedure := by
  have procedures := behind.procedure
  cases opened : draft.procedure with
  | none =>
    rw [opened] at procedures
    simpa only [Draft.closeProcedure, opened, procedures, Option.map_none] using behind
  | some procedure =>
    rw [opened] at procedures
    simp only [Draft.closeProcedure, opened, procedures, Option.map_some]
    refine ⟨?_, (behind.code.emit .release _ _).emit .ret .absent .absent, rfl⟩
    simp only [Draft.emit, Draft.emitAt, behind.symbols]
    rfl

theorem Behind.emitRead (behind : draft.Behind jumps other) (name : Token) :
    Alike (Behind jumps) (draft.emitRead name) (other.emitRead name) := by
  refine (behind.resolveVariable name).bind ?_
  rintro symbol _ rfl
  exact (behind.emit .read .absent .absent).emit .store _ _

theorem Behind.emitCall (behind : draft.Behind jumps other) (name : Token) (procedure : Symbol)
    (arguments : List Token) :
    Alike (Behind jumps) (draft.emitCall name procedure arguments)
      (other.emitCall name (procedure.behind jumps) arguments) := by
  unfold Draft.emitCall
  rw [Symbol.parameters_behind]
  split
  · exact .same _
  · refine (Alike.mapM behind.resolveVariable arguments).bind ?_
    rintro _ symbols rfl
    have passed := (behind.emitJump .pushReturn).emitEach .pass Symbol.address symbols
    dsimp only
    rw [behind.nextIndex]
    refine (passed.patch _ _ _).bind fun patched patchedToo reached => ?_
    exact reached.emit .call _ _

end Draft

end Pascalet
