import Pascalet.Proofs.Recognition.Sentence
import Pascalet.Proofs.Scoping.Context

namespace Pascalet

open Pascalet.Tree

theorem Tree.exists_denotes_iff {before : List Item} {name : String} :
    (∃ meaning, Denotes before name meaning) ↔ name ∈ before.flatMap Item.names := by
  simp only [Denotes, List.mem_flatMap]
  constructor
  · rintro ⟨meaning, item, found, declares⟩
    refine ⟨item, found, ?_⟩
    cases item with
    | vars declared => exact declares.1
    | procedure declared => exact List.mem_singleton.mpr declares.1
  · rintro ⟨item, found, named⟩
    cases item with
    | vars declared => exact ⟨.cell, _, found, named, rfl⟩
    | procedure declared => exact ⟨_, _, found, List.mem_singleton.mp named, rfl⟩

theorem Tree.denotes_append {before : List Item} {item : Item} {name : String} {meaning : Meaning} :
    Denotes (before ++ [item]) name meaning ↔
      Denotes before name meaning ∨ item.Declares name meaning := by
  simp [Denotes, or_and_right, exists_or]

theorem Tree.Variables.lexemes_declared (declared : Variables) :
    Context.lexemes declared.typed.declared = declared.names := by
  simp [Context.lexemes, Typed.declared, Variables.names, Function.comp_def]

theorem Tree.Procedure.ownNames_eq (declared : Procedure) : declared.ownNames =
    Context.lexemes declared.parameterNames ++ Context.lexemes declared.localNames := by
  simp [Procedure.ownNames, Context.lexemes]

namespace Context

/-- A context outside of procedures that knows just the names of some declarations. Scopes are known
by name, so nothing may be declared yet in the scope of a name that is still free. -/
structure Models (context : Context) (before : List Item) : Prop where
  scope : context.table.scope = globalScope
  globals : ∀ name meaning,
    context.table.meaningIn globalScope name = some meaning ↔ Denotes before name meaning
  isolated : ∀ scope name, scope ≠ globalScope →
    context.table.meaningIn globalScope scope = none → context.table.meaningIn scope name = none

variable {context after : Context} {before : List Item}

theorem Models.empty : ({} : Context).Models [] where
  scope := rfl
  globals name meaning := by simp [SymbolTable.meaningIn, SymbolTable.findIn?, Denotes]
  isolated scope name _ _ := rfl

theorem Models.free_iff (models : context.Models before) {name : String} :
    context.table.meaningIn globalScope name = none ↔ name ∉ before.flatMap Item.names := by
  rw [← exists_denotes_iff, Option.eq_none_iff_forall_ne_some]
  simp only [ne_eq, models.globals, not_exists]

theorem Models.succeeds_variables_iff (models : context.Models before) (declared : Variables) :
    Succeeds (declared.typed.declared.foldlM (declareCell .var) context) ↔
      declared.names.Nodup ∧ ∀ name ∈ declared.names, name ∉ before.flatMap Item.names := by
  rw [succeeds_declareCells_iff (by simp), declared.lexemes_declared, models.scope]
  simp only [models.free_iff]

theorem Models.of_variables (models : context.Models before) {declared : Variables}
    (done : declared.typed.declared.foldlM (declareCell .var) context = .ok after) :
    after.Models (before ++ [.vars declared]) := by
  obtain ⟨_, free⟩ := (models.succeeds_variables_iff declared).mp ⟨after, done⟩
  have meanings := meaningIn_of_declareCells (by simp) done
  rw [declared.lexemes_declared, models.scope] at meanings
  refine ⟨(scope_of_declareCells done).trans models.scope, ?_, ?_⟩
  · intro name meaning
    rw [meanings, denotes_append, ← models.globals, Item.Declares]
    by_cases new : name ∈ declared.names
    · simp [models.free_iff.mpr (free name new), new, eq_comm]
    · simp [new]
  · intro scope name notGlobal absent
    rw [meanings] at absent ⊢
    have old := models.isolated scope name notGlobal (Option.or_eq_none_iff.mp absent).1
    simp [old, notGlobal.symm]

structure Inside (entered context : Context) (declared : Procedure) : Prop where
  scope : entered.table.scope = declared.name.lexeme
  own : ∀ name, entered.table.meaningIn declared.name.lexeme name =
    if name ∈ declared.ownNames then some .cell else none
  globals : ∀ name, entered.table.meaningIn globalScope name =
    (context.table.meaningIn globalScope name).or
      (if declared.name.lexeme = name then some (.procedure declared.parameterNames.length) else none)
  others : ∀ scope name, scope ≠ globalScope → scope ≠ declared.name.lexeme →
    entered.table.meaningIn scope name = context.table.meaningIn scope name

variable {declared : Procedure} {headed entered : Context}

theorem meaningIn_headed
    (heading : declared.parameterNames.foldlM (declareCell .parameter)
      { context with table := context.table.enterScope declared.name.lexeme } = .ok headed)
    (scope name : String) :
    headed.table.meaningIn scope name = (context.table.meaningIn scope name).or
      (if name ∈ lexemes declared.parameterNames ∧ declared.name.lexeme = scope then some .cell
        else none) :=
  meaningIn_of_declareCells (by simp) heading scope name

theorem meaningIn_declareProcedure (name : Token) (types : List DataType) (scope other : String) :
    (context.declareProcedure name types).table.meaningIn scope other =
      (context.table.meaningIn scope other).or
        (if name.lexeme = other ∧ globalScope = scope then some (.procedure types.length)
          else none) := by
  rw [declareProcedure, SymbolTable.meaningIn_declare]
  rfl

theorem Models.inside (models : context.Models before)
    (notGlobal : declared.name.lexeme ≠ globalScope)
    (fresh : context.table.meaningIn globalScope declared.name.lexeme = none)
    (heading : declared.parameterNames.foldlM (declareCell .parameter)
      { context with table := context.table.enterScope declared.name.lexeme } = .ok headed)
    (entering : declared.localNames.foldlM (declareCell .var)
      (headed.declareProcedure declared.name.token (declared.parameterNames.map (·.1))) =
        .ok entered) : entered.Inside context declared := by
  have headedScope : headed.table.scope = declared.name.lexeme := scope_of_declareCells heading
  have meanings (scope name : String) := meaningIn_of_declareCells (by simp) entering scope name
  simp only [meaningIn_declareProcedure, meaningIn_headed heading, List.length_map] at meanings
  have procedureScope : (headed.declareProcedure declared.name.token
      (declared.parameterNames.map (·.1))).table.scope = declared.name.lexeme := headedScope
  rw [procedureScope] at meanings
  refine ⟨(scope_of_declareCells entering).trans headedScope, ?_, ?_, ?_⟩
  · intro name
    rw [meanings, models.isolated _ name notGlobal fresh, declared.ownNames_eq]
    by_cases parameter : name ∈ lexemes declared.parameterNames <;>
      by_cases inner : name ∈ lexemes declared.localNames <;>
      simp [parameter, inner, notGlobal.symm]
  · intro name
    rw [meanings]
    simp [notGlobal, Tree.Terminal.token]
  · intro scope name other foreign
    rw [meanings]
    simp [foreign.symm, other.symm]

theorem Inside.allows_iff (inside : entered.Inside context declared) (models : context.Models before)
    (fresh : context.table.meaningIn globalScope declared.name.lexeme = none) (use : Use) :
    entered.table.Allows use ↔
      ∃ meaning, declared.Denotes before use.name meaning ∧ use.Accepts meaning := by
  rw [SymbolTable.allows_iff, inside.scope, inside.own, inside.globals]
  apply exists_congr
  intro meaning
  apply and_congr_left
  intro _
  unfold Procedure.Denotes
  by_cases own : use.name ∈ declared.ownNames
  · simp [own, eq_comm]
  · rw [if_neg own, if_neg own, denotes_append, ← models.globals, Item.Declares]
    by_cases self : declared.name.lexeme = use.name
    · simp [← self, fresh, eq_comm]
    · simp [self, Ne.symm self]

theorem Models.succeeds_heading_iff (models : context.Models before)
    (notGlobal : declared.name.lexeme ≠ globalScope)
    (fresh : context.table.meaningIn globalScope declared.name.lexeme = none) :
    Succeeds (declared.parameterNames.foldlM (declareCell .parameter)
      { context with table := context.table.enterScope declared.name.lexeme }) ↔
      (lexemes declared.parameterNames).Nodup := by
  rw [succeeds_declareCells_iff (by simp)]
  exact and_iff_left fun name _ => models.isolated declared.name.lexeme name notGlobal fresh

theorem Models.succeeds_entering_iff (models : context.Models before)
    (notGlobal : declared.name.lexeme ≠ globalScope)
    (fresh : context.table.meaningIn globalScope declared.name.lexeme = none)
    (heading : declared.parameterNames.foldlM (declareCell .parameter)
      { context with table := context.table.enterScope declared.name.lexeme } = .ok headed) :
    Succeeds (declared.localNames.foldlM (declareCell .var)
      (headed.declareProcedure declared.name.token (declared.parameterNames.map (·.1)))) ↔
      declared.ownNames.Nodup := by
  have headedScope : headed.table.scope = declared.name.lexeme := scope_of_declareCells heading
  have parametersDistinct := (models.succeeds_heading_iff notGlobal fresh).mp ⟨headed, heading⟩
  have free (name : String) : (headed.declareProcedure declared.name.token
      (declared.parameterNames.map (·.1))).table.meaningIn declared.name.lexeme name = none ↔
      name ∉ lexemes declared.parameterNames := by
    rw [meaningIn_declareProcedure, meaningIn_headed heading,
      models.isolated _ name notGlobal fresh]
    simp [notGlobal.symm]
  have procedureScope : (headed.declareProcedure declared.name.token
      (declared.parameterNames.map (·.1))).table.scope = declared.name.lexeme := headedScope
  rw [succeeds_declareCells_iff (by simp), procedureScope, declared.ownNames_eq]
  simp only [free]
  constructor
  · rintro ⟨localsDistinct, apart⟩
    exact List.nodup_append.mpr ⟨parametersDistinct, localsDistinct,
      fun first firstFound second secondFound same => apart second secondFound (same ▸ firstFound)⟩
  · intro distinct
    obtain ⟨_, localsDistinct, apart⟩ := List.nodup_append.mp distinct
    exact ⟨localsDistinct, fun name found parameter => apart name parameter name found rfl⟩

theorem Models.succeeds_procedure_iff (models : context.Models before)
    (notGlobal : declared.name.lexeme ≠ globalScope) :
    Succeeds (declared.resolve context) ↔
      declared.name.lexeme ∉ before.flatMap Item.names ∧ declared.ownNames.Nodup ∧
        ∀ use ∈ declared.body.uses, ∃ meaning, declared.Denotes before use.name meaning ∧
          use.Accepts meaning := by
  rw [← models.free_iff]
  have opening : context.openProcedure declared.name.token =
      if context.table.declaredHere declared.name.lexeme then
        .error (.redeclared declared.name.token context.table.scope)
      else .ok { context with table := context.table.enterScope declared.name.lexeme } := by
    cases taken : context.table.declaredHere declared.name.lexeme <;>
      simp [openProcedure, checkFresh, Terminal.token, bind, Except.bind, taken]
  rw [Procedure.resolve, opening]
  by_cases fresh : context.table.meaningIn globalScope declared.name.lexeme = none
  · have undeclared : context.table.declaredHere declared.name.lexeme = false := by
      rw [SymbolTable.declaredHere_eq_false_iff, models.scope]
      exact fresh
    have headingIff := models.succeeds_heading_iff notGlobal fresh
    rw [undeclared, if_neg Bool.false_ne_true, and_iff_right fresh]
    change Succeeds (declared.parameterNames.foldlM (declareCell .parameter)
      { context with table := context.table.enterScope declared.name.lexeme } >>= _) ↔ _
    cases heading : declared.parameterNames.foldlM (declareCell .parameter)
      { context with table := context.table.enterScope declared.name.lexeme } with
    | error error =>
      rw [heading] at headingIff
      have repeated : ¬ declared.ownNames.Nodup := by
        intro distinct
        rw [declared.ownNames_eq] at distinct
        exact Succeeds.not_error error (headingIff.mpr (List.nodup_append.mp distinct).1)
      simp [bind, Except.bind, repeated]
    | ok headed =>
      have enteringIff := models.succeeds_entering_iff notGlobal fresh heading
      change Succeeds (declared.localNames.foldlM (declareCell .var)
        (headed.declareProcedure declared.name.token (declared.parameterNames.map (·.1))) >>= _) ↔ _
      cases entering : declared.localNames.foldlM (declareCell .var)
        (headed.declareProcedure declared.name.token (declared.parameterNames.map (·.1))) with
      | error error =>
        rw [entering] at enteringIff
        have repeated : ¬ declared.ownNames.Nodup :=
          fun distinct => Succeeds.not_error error (enteringIff.mpr distinct)
        simp [bind, Except.bind, repeated]
      | ok entered =>
        have distinct := enteringIff.mp ⟨entered, entering⟩
        have inside := models.inside notGlobal fresh heading entering
        rw [and_iff_right distinct]
        change Succeeds (declared.body.resolve entered.table >>= _) ↔ _
        rw [Succeeds.bind_ok_iff, declared.body.succeeds_iff]
        simp only [inside.allows_iff models fresh]
  · have taken : context.table.declaredHere declared.name.lexeme = true := by
      rw [← Bool.not_eq_false, SymbolTable.declaredHere_eq_false_iff, models.scope]
      exact fresh
    simp [taken, fresh, bind, Except.bind]

theorem Models.of_procedure (models : context.Models before)
    (notGlobal : declared.name.lexeme ≠ globalScope) {resolved : Core.Procedure}
    (done : declared.resolve context = .ok (resolved, after)) :
    after.Models (before ++ [.procedure declared]) := by
  obtain ⟨headed, entered, steps⟩ := Procedure.of_resolve done
  have fresh := SymbolTable.declaredHere_eq_false_iff.mp steps.fresh
  rw [models.scope] at fresh
  have inside := models.inside notGlobal fresh steps.heading steps.entering
  have same (scope name : String) :
      after.table.meaningIn scope name = entered.table.meaningIn scope name := by
    rw [steps.leaving]
    rfl
  refine ⟨by rw [steps.leaving]; rfl, ?_, ?_⟩
  · intro name meaning
    rw [same, inside.globals, denotes_append, ← models.globals, Item.Declares]
    by_cases self : declared.name.lexeme = name
    · simp [← self, fresh, eq_comm]
    · simp [self, Ne.symm self]
  · intro scope name other absent
    rw [same, inside.globals, Option.or_eq_none_iff] at absent
    have foreign : scope ≠ declared.name.lexeme := by
      rintro rfl
      simp at absent
    rw [same, inside.others scope name other foreign]
    exact models.isolated scope name other absent.1

end Context

namespace Tree

structure Item.Scoped (before : List Item) (item : Item) : Prop where
  distinct : item.names.Nodup
  fresh : ∀ name ∈ item.names, name ∉ before.flatMap Item.names
  inner : ∀ declared, item = .procedure declared → declared.ownNames.Nodup ∧
    ∀ use ∈ declared.body.uses, ∃ meaning, declared.Denotes before use.name meaning ∧
      use.Accepts meaning

def AllScoped (before : List Item) : List Item → Prop
  | [] => True
  | item :: rest => item.Scoped before ∧ AllScoped (before ++ [item]) rest

variable {context : Context} {before : List Item}

theorem Item.scoped_variables_iff (declared : Variables) :
    (Item.vars declared).Scoped before ↔
      declared.names.Nodup ∧ ∀ name ∈ declared.names, name ∉ before.flatMap Item.names := by
  constructor
  · intro keeps
    exact ⟨keeps.distinct, keeps.fresh⟩
  · rintro ⟨distinct, fresh⟩
    exact ⟨distinct, fresh, fun _ other => by cases other⟩

theorem Item.scoped_procedure_iff (declared : Procedure) :
    (Item.procedure declared).Scoped before ↔
      declared.name.lexeme ∉ before.flatMap Item.names ∧ declared.ownNames.Nodup ∧
        ∀ use ∈ declared.body.uses, ∃ meaning, declared.Denotes before use.name meaning ∧
          use.Accepts meaning := by
  constructor
  · intro keeps
    exact ⟨keeps.fresh _ (List.mem_singleton_self _), keeps.inner declared rfl⟩
  · rintro ⟨fresh, inner⟩
    refine ⟨by simp [Item.names], ?_, ?_⟩
    · intro name found
      rw [List.mem_singleton.mp found]
      exact fresh
    · intro other same
      cases same
      exact inner

theorem succeeds_resolveItems_iff (items : List Item) (models : context.Models before)
    (named : ∀ declared, .procedure declared ∈ items → declared.name.lexeme ≠ globalScope) :
    Succeeds (resolveItems items context) ↔ AllScoped before items := by
  induction items generalizing context before with
  | nil => simp [resolveItems, AllScoped]
  | cons item rest ih =>
    have namedRest : ∀ declared, .procedure declared ∈ rest → declared.name.lexeme ≠ globalScope :=
      fun declared found => named declared (List.mem_cons_of_mem item found)
    cases item with
    | vars declared =>
      have firstIff := models.succeeds_variables_iff declared
      rw [← Item.scoped_variables_iff] at firstIff
      rw [resolveItems, AllScoped, ← firstIff]
      cases entering : declared.typed.declared.foldlM (Context.declareCell .var) context with
      | error error => simp [bind, Except.bind]
      | ok after =>
        rw [and_iff_right (Succeeds.ok after)]
        exact Succeeds.bind_ok_iff.trans (ih (models.of_variables entering) namedRest)
    | procedure declared =>
      have notGlobal := named declared List.mem_cons_self
      have firstIff := models.succeeds_procedure_iff notGlobal
      rw [← Item.scoped_procedure_iff] at firstIff
      rw [resolveItems, AllScoped, ← firstIff]
      cases resolving : declared.resolve context with
      | error error => simp [bind, Except.bind]
      | ok resolved =>
        rw [and_iff_right (Succeeds.ok resolved)]
        exact Succeeds.bind_ok_iff.trans (ih (models.of_procedure notGlobal resolving) namedRest)

theorem models_of_resolveItems {items : List Item} {core : List Core.Item} {final : Context}
    (models : context.Models before)
    (named : ∀ declared, .procedure declared ∈ items → declared.name.lexeme ≠ globalScope)
    (done : resolveItems items context = .ok (core, final)) : final.Models (before ++ items) := by
  induction items generalizing context before core with
  | nil =>
    cases done
    simpa using models
  | cons item rest ih =>
    have namedRest : ∀ declared, .procedure declared ∈ rest → declared.name.lexeme ≠ globalScope :=
      fun declared found => named declared (List.mem_cons_of_mem item found)
    rw [← List.singleton_append, ← List.append_assoc]
    cases item with
    | vars declared =>
      obtain ⟨after, others, entering, resolving, rfl⟩ := of_resolveItems_variables done
      exact ih (models.of_variables entering) namedRest resolving
    | procedure declared =>
      obtain ⟨resolved, after, others, first, resolving, rfl⟩ := of_resolveItems_procedure done
      exact ih (models.of_procedure (named declared List.mem_cons_self) first) namedRest resolving

theorem allScoped_iff (items : List Item) (before : List Item) :
    AllScoped before items ↔
      (items.flatMap Item.names).Nodup ∧
      (∀ name ∈ items.flatMap Item.names, name ∉ before.flatMap Item.names) ∧
      (∀ declared, .procedure declared ∈ items → declared.ownNames.Nodup) ∧
      ∀ front declared after, items = front ++ .procedure declared :: after →
        ∀ use ∈ declared.body.uses, ∃ meaning,
          declared.Denotes (before ++ front) use.name meaning ∧ use.Accepts meaning := by
  induction items generalizing before with
  | nil => simp [AllScoped]
  | cons item rest ih =>
    rw [AllScoped, ih, List.flatMap_cons]
    simp only [List.flatMap_append, List.flatMap_cons, List.flatMap_nil, List.append_nil,
      List.mem_append, not_or]
    constructor
    · rintro ⟨first, distinct, fresh, locals, uses⟩
      refine ⟨List.nodup_append.mpr ⟨first.distinct, distinct, ?_⟩, ?_, ?_, ?_⟩
      · rintro name here other later rfl
        exact (fresh name later).2 here
      · rintro name (here | later)
        · exact first.fresh name here
        · exact (fresh name later).1
      · intro declared found
        rcases List.mem_cons.mp found with here | later
        · exact (first.inner declared here.symm).1
        · exact locals declared later
      · intro front declared after split
        cases front with
        | nil =>
          obtain ⟨rfl, -⟩ := List.cons.inj split
          simpa using (first.inner declared rfl).2
        | cons head tail =>
          obtain ⟨rfl, behind⟩ := List.cons.inj split
          simpa using uses tail declared after behind
    · rintro ⟨distinct, fresh, locals, uses⟩
      obtain ⟨firstDistinct, restDistinct, apart⟩ := List.nodup_append.mp distinct
      refine ⟨⟨firstDistinct, fun name here => fresh name (.inl here), ?_⟩, restDistinct, ?_, ?_, ?_⟩
      · rintro declared rfl
        exact ⟨locals declared List.mem_cons_self, by simpa using uses [] declared rest rfl⟩
      · intro name later
        exact ⟨fresh name (.inr later), fun here => apart name here name later rfl⟩
      · exact fun declared later => locals declared (List.mem_cons_of_mem item later)
      · intro front declared after split
        simpa using uses (item :: front) declared after (by rw [split]; rfl)

/-- A tree has a core program just when it keeps the scoping rules. -/
theorem Program.succeeds_resolve_iff (program : Program)
    (named : ∀ declared, .procedure declared ∈ program.items →
      declared.name.lexeme ≠ globalScope) :
    Succeeds program.resolve ↔ program.WellScoped := by
  have itemsIff := succeeds_resolveItems_iff program.items Context.Models.empty named
  have parts := allScoped_iff program.items []
  rw [Program.resolve]
  cases resolving : resolveItems program.items {} with
  | error error =>
    rw [resolving] at itemsIff
    have broken : ¬ program.WellScoped := by
      intro keeps
      refine Succeeds.not_error error (itemsIff.mpr (parts.mpr ⟨keeps.globals, by simp, keeps.locals,
        fun front declared after split => ?_⟩))
      simpa using keeps.procedureUses front declared after split
    simp [bind, Except.bind, broken]
  | ok resolved =>
    obtain ⟨core, final⟩ := resolved
    have models := models_of_resolveItems Context.Models.empty named resolving
    obtain ⟨globals, -, locals, procedureUses⟩ := parts.mp (itemsIff.mp ⟨_, resolving⟩)
    have allows (use : Use) : final.table.Allows use ↔
        ∃ meaning, Denotes program.items use.name meaning ∧ use.Accepts meaning := by
      rw [SymbolTable.allows_iff, models.scope]
      simp only [Option.or_self, models.globals, List.nil_append]
    change Succeeds (program.body.resolve final.table >>= _) ↔ _
    rw [Succeeds.bind_ok_iff, program.body.succeeds_iff]
    simp only [allows]
    constructor
    · intro mainUses
      refine ⟨globals, locals, ?_, mainUses⟩
      simpa using procedureUses
    · intro keeps
      exact keeps.mainUses

end Tree

/-- A program without a procedure of the name of the global scope compiles if it keeps the scoping
rules, and otherwise has an error in its names. -/
theorem Program.compile_iff_wellScoped {source : String} {tree : Tree.Program}
    (complete : (tokenize source).failure = none) (spells : tree.Spells (tokenize source).tokens)
    (named : ∀ declared, .procedure declared ∈ tree.items → declared.name.lexeme ≠ "global") :
    ((∃ program, compile source = .ok program) ↔ tree.WellScoped) ∧
      (¬ tree.WellScoped → ∃ error, compile source = .error error ∧ error.isSemantic = true) := by
  have rules := tree.succeeds_resolve_iff named
  rw [compile_eq spells complete]
  constructor
  · rw [← rules]
    exact Succeeds.map_iff
  · intro broken
    cases resolved : tree.resolve with
    | error error => exact ⟨error, rfl, tree.failsByNames error resolved⟩
    | ok pair => exact absurd (rules.mp ⟨pair, resolved⟩) broken

/-- A parameter that hides a variable, and a procedure that calls itself with it. -/
def Tree.shadowing : Tree.Program :=
  let named : Tree.Typed := ⟨⟨⟨"x", 1⟩, []⟩, ⟨":", 1⟩, .real ⟨"real", 1⟩⟩
  let call : Tree.Statements := .last (.call ⟨"q", 1⟩ (some ⟨⟨"(", 1⟩, ⟨⟨"x", 1⟩, []⟩, ⟨")", 1⟩⟩))
  { word := ⟨"program", 1⟩
    name := ⟨"p", 1⟩
    semicolon := some ⟨";", 1⟩
    declarations := [
      .vars ⟨⟨"var", 1⟩, named, some ⟨";", 1⟩⟩,
      .procedures
        { word := ⟨"procedure", 1⟩
          name := ⟨"q", 1⟩
          parameters := some ⟨⟨"(", 1⟩, named, [], ⟨")", 1⟩⟩
          semicolon := some ⟨";", 1⟩
          locals := []
          beginWord := ⟨"begin", 1⟩
          body := call
          endWord := ⟨"end", 1⟩
          close := some ⟨";", 1⟩ } []]
    beginWord := ⟨"begin", 1⟩
    body := call
    endWord := ⟨"end", 1⟩
    dot := ⟨".", 1⟩ }

theorem Program.compile_iff_wellScoped_shadowing :
    Tree.shadowing.Spells (tokenize
      "program p; var x: real; procedure q(x: real); begin q(x) end; begin q(x) end.").tokens ∧
    Tree.shadowing.WellScoped := by
  have spells : Tree.shadowing.Spells (tokenize
      "program p; var x: real; procedure q(x: real); begin q(x) end; begin q(x) end.").tokens :=
    ⟨⟨"", 1⟩, by decide +kernel⟩
  have named : ∀ declared, .procedure declared ∈ Tree.shadowing.items →
      declared.name.lexeme ≠ "global" := by
    simp [Tree.shadowing, Tree.Program.items, Tree.Declaration.items]
  have checked : (compile
      "program p; var x: real; procedure q(x: real); begin q(x) end; begin q(x) end.").toOption.any
        (fun _ => true) = true := by
    decide +kernel
  obtain ⟨program, compiled, _⟩ := exists_of_any checked
  have rules := compile_iff_wellScoped (by decide +kernel) spells named
  exact ⟨spells, rules.1.mp ⟨program, compiled⟩⟩

end Pascalet
