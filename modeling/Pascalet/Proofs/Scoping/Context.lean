import Pascalet.Proofs.Core.Context
import Pascalet.Proofs.Scoping.Statement

namespace Pascalet

open Pascalet.Tree (Meaning)

namespace SymbolTable

def meaningIn (table : SymbolTable) (scope name : String) : Option Meaning :=
  (table.findIn? scope name).map Symbol.meaning

variable {table : SymbolTable}

theorem declaredHere_eq_false_iff {name : String} :
    table.declaredHere name = false ↔ table.meaningIn table.scope name = none := by
  simp [declaredHere, meaningIn]

theorem allows_iff (use : Tree.Use) :
    table.Allows use ↔ ∃ meaning,
      (table.meaningIn table.scope use.name).or (table.meaningIn globalScope use.name) =
        some meaning ∧ use.Accepts meaning := by
  unfold Allows lookup? meaningIn
  cases table.findIn? table.scope use.name with
  | some symbol => simp
  | none => cases table.findIn? globalScope use.name <;> simp

theorem meaningIn_declare (symbol : Symbol) (scope name : String) :
    (table.declare symbol).meaningIn scope name = (table.meaningIn scope name).or
      (if symbol.name = name ∧ symbol.scope = scope then some symbol.meaning else none) := by
  unfold meaningIn findIn? declare
  rw [List.find?_append]
  cases table.symbols.find? (fun other => other.name == name && other.scope == scope) with
  | some other => simp
  | none =>
    by_cases matching : symbol.name = name ∧ symbol.scope = scope
    · simp [matching]
    · simp [matching]

end SymbolTable

namespace Context

variable {context after : Context} {category : Category} {names : List (DataType × Token)}

def lexemes (names : List (DataType × Token)) : List String :=
  names.map (·.2.lexeme)

theorem succeeds_declareCell_iff (declared : DataType × Token) :
    Succeeds (context.declareCell category declared) ↔
      context.table.declaredHere declared.2.lexeme = false := by
  unfold declareCell checkFresh
  cases context.table.declaredHere declared.2.lexeme <;> simp [bind, Except.bind]

theorem meaningIn_enterCell (other : category ≠ .procedure) (type : DataType) (token : Token)
    (scope name : String) :
    (context.enterCell category type token).table.meaningIn scope name =
      (context.table.meaningIn scope name).or
        (if token.lexeme = name ∧ context.table.scope = scope then some .cell else none) := by
  rw [enterCell, SymbolTable.meaningIn_declare]
  simp [Symbol.meaning, Symbol.isProcedure, other]

theorem succeeds_declareCells_iff (other : category ≠ .procedure) :
    Succeeds (names.foldlM (declareCell category) context) ↔
      (lexemes names).Nodup ∧
        ∀ name ∈ lexemes names, context.table.meaningIn context.table.scope name = none := by
  induction names generalizing context with
  | nil => simp [lexemes, pure, Except.pure]
  | cons declared rest ih =>
    have expanded : lexemes (declared :: rest) = declared.2.lexeme :: lexemes rest := rfl
    rw [List.foldlM_cons, expanded, List.nodup_cons, List.forall_mem_cons]
    cases first : context.declareCell category declared with
    | error error =>
      have taken : ¬ context.table.meaningIn context.table.scope declared.2.lexeme = none := by
        rw [← SymbolTable.declaredHere_eq_false_iff, ← @succeeds_declareCell_iff context category,
          first]
        exact Succeeds.not_error error
      simp [bind, Except.bind, taken]
    | ok after =>
      obtain ⟨fresh, rfl⟩ := of_declareCell first
      rw [SymbolTable.declaredHere_eq_false_iff] at fresh
      have entered (name : String) :
          (context.enterCell category declared.1 declared.2).table.meaningIn context.table.scope
            name = none ↔
          context.table.meaningIn context.table.scope name = none ∧ declared.2.lexeme ≠ name := by
        simp [meaningIn_enterCell other]
      change Succeeds (rest.foldlM _ (context.enterCell category declared.1 declared.2)) ↔ _
      rw [ih]
      change (_ ∧ ∀ name ∈ lexemes rest,
        (context.enterCell category declared.1 declared.2).table.meaningIn context.table.scope
          name = none) ↔ _
      simp only [entered]
      constructor
      · rintro ⟨distinct, others⟩
        exact ⟨⟨fun found => (others _ found).2 rfl, distinct⟩, fresh,
          fun name found => (others name found).1⟩
      · rintro ⟨⟨absent, distinct⟩, _, others⟩
        exact ⟨distinct, fun name found => ⟨others name found, fun same => absent (same ▸ found)⟩⟩

theorem scope_of_declareCells (done : names.foldlM (declareCell category) context = .ok after) :
    after.table.scope = context.table.scope :=
  @foldlM_declareCell context after category
    (fun reached => reached.table.scope = context.table.scope) names
    (fun _ _ same _ => same) done rfl

theorem meaningIn_of_declareCells (other : category ≠ .procedure)
    (done : names.foldlM (declareCell category) context = .ok after) (scope name : String) :
    after.table.meaningIn scope name = (context.table.meaningIn scope name).or
      (if name ∈ lexemes names ∧ context.table.scope = scope then some .cell else none) := by
  induction names generalizing context with
  | nil =>
    cases done
    simp [lexemes]
  | cons declared rest ih =>
    rw [List.foldlM_cons] at done
    cases first : context.declareCell category declared with
    | error error => simp [first, bind, Except.bind] at done
    | ok between =>
      rw [first] at done
      obtain ⟨_, rfl⟩ := of_declareCell first
      have expanded : lexemes (declared :: rest) = declared.2.lexeme :: lexemes rest := rfl
      have sameScope : (context.enterCell category declared.1 declared.2).table.scope =
          context.table.scope := rfl
      rw [ih done, meaningIn_enterCell other, expanded, Option.or_assoc, sameScope]
      congr 1
      by_cases here : context.table.scope = scope <;> by_cases same : declared.2.lexeme = name <;>
        simp [here, same, List.mem_cons, Ne.symm]

end Context

end Pascalet
