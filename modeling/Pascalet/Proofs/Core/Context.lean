import Pascalet.Proofs.Core.Resolve

namespace Pascalet

/-- The address of a symbol is a cell in use or the number of a procedure with as many parameters. -/
def Symbol.Fits (cells : Nat) (parameterCounts : List Nat) (symbol : Symbol) : Prop :=
  ∃ number : Nat, symbol.address = number ∧
    (symbol.isProcedure = true → parameterCounts[number]? = some symbol.parameters.length) ∧
    (symbol.isProcedure = false → number < cells)

theorem Symbol.Fits.mono {cells more : Nat} {parameterCounts : List Nat} {symbol : Symbol}
    (fits : symbol.Fits cells parameterCounts) (le : cells ≤ more) (others : List Nat) :
    symbol.Fits more (parameterCounts ++ others) := by
  obtain ⟨number, address, counted, bounded⟩ := fits
  refine ⟨number, address, ?_, fun other => Nat.lt_of_lt_of_le (bounded other) le⟩
  intro procedure
  have inside := (List.getElem?_eq_some_iff.mp (counted procedure)).1
  rw [List.getElem?_append_left inside]
  exact counted procedure

def SymbolTable.Fits (cells : Nat) (parameterCounts : List Nat) (table : SymbolTable) : Prop :=
  ∀ symbol ∈ table.symbols, symbol.Fits cells parameterCounts

namespace Context

def Fits (context : Context) : Prop :=
  context.table.Fits context.cells context.parameterCounts

theorem fits_empty : Context.Fits {} := by
  simp [Fits, SymbolTable.Fits]

variable {context after : Context} {category : Category} {declared : DataType × Token}

theorem of_declareCell (done : context.declareCell category declared = .ok after) :
    context.table.declaredHere declared.2.lexeme = false ∧
      after = context.enterCell category declared.1 declared.2 := by
  unfold declareCell checkFresh at done
  split at done
  · cases done
  next fresh =>
    cases done
    exact ⟨Bool.eq_false_iff.mpr fresh, rfl⟩

theorem of_openProcedure {name : Token} (done : context.openProcedure name = .ok after) :
    context.table.declaredHere name.lexeme = false ∧
      after = { context with table := context.table.enterScope name.lexeme } := by
  unfold openProcedure checkFresh at done
  split at done
  · cases done
  next fresh =>
    cases done
    exact ⟨Bool.eq_false_iff.mpr fresh, rfl⟩

theorem foldlM_declareCell {motive : Context → Prop} {names : List (DataType × Token)}
    (step : ∀ (before : Context) (declared : DataType × Token), motive before →
      before.table.declaredHere declared.2.lexeme = false →
      motive (before.enterCell category declared.1 declared.2))
    (done : names.foldlM (declareCell category) context = .ok after)
    (holds : motive context) : motive after := by
  induction names generalizing context with
  | nil =>
    cases done
    exact holds
  | cons declared rest ih =>
    rw [List.foldlM_cons] at done
    cases first : context.declareCell category declared with
    | error error => simp [first, bind, Except.bind] at done
    | ok between =>
      rw [first] at done
      obtain ⟨fresh, rfl⟩ := of_declareCell first
      exact ih done (step context declared holds fresh)

theorem Fits.natural (fits : context.Fits) {symbol : Symbol}
    (found : symbol ∈ context.table.symbols) : 0 ≤ symbol.address := by
  obtain ⟨number, address, _⟩ := fits symbol found
  omega

theorem Fits.enterCell (fits : context.Fits) (other : category ≠ .procedure) (type : DataType)
    (name : Token) : (context.enterCell category type name).Fits := by
  intro symbol found
  rcases List.mem_append.mp found with old | new
  · have kept := (fits symbol old).mono (Nat.le_succ context.cells) []
    rwa [List.append_nil] at kept
  · obtain rfl := List.mem_singleton.mp new
    exact ⟨context.cells, rfl, by simp [Symbol.isProcedure, other],
      fun _ => Nat.lt_succ_self context.cells⟩

theorem Fits.declareCells (fits : context.Fits) (other : category ≠ .procedure)
    {names : List (DataType × Token)}
    (done : names.foldlM (declareCell category) context = .ok after) : after.Fits :=
  foldlM_declareCell (fun _ declared before _ => before.enterCell other declared.1 declared.2) done
    fits

theorem Fits.declareProcedure (fits : context.Fits) (name : Token) (types : List DataType) :
    (context.declareProcedure name types).Fits := by
  intro symbol found
  rcases List.mem_append.mp found with old | new
  · exact (fits symbol old).mono (Nat.le_refl _) [types.length]
  · obtain rfl := List.mem_singleton.mp new
    exact ⟨context.parameterCounts.length, rfl, by simp [Context.declareProcedure],
      by simp [Symbol.isProcedure]⟩

theorem cells_of_declareCells {names : List (DataType × Token)}
    (done : names.foldlM (declareCell category) context = .ok after) :
    after.cells = context.cells + names.length := by
  induction names generalizing context with
  | nil =>
    cases done
    rfl
  | cons declared rest ih =>
    rw [List.foldlM_cons] at done
    cases first : context.declareCell category declared with
    | error error => simp [first, bind, Except.bind] at done
    | ok between =>
      rw [first] at done
      obtain ⟨_, rfl⟩ := of_declareCell first
      rw [ih done, List.length_cons]
      simp only [Context.enterCell]
      omega

theorem parameterCounts_of_declareCells {names : List (DataType × Token)}
    (done : names.foldlM (declareCell category) context = .ok after) :
    after.parameterCounts = context.parameterCounts :=
  @foldlM_declareCell context after category
    (fun reached => reached.parameterCounts = context.parameterCounts) names
    (fun _ _ same _ => same) done rfl

theorem Fits.closeProcedure (fits : context.Fits) : context.closeProcedure.Fits := fits

end Context

namespace Tree

structure Procedure.Resolved (declared : Procedure) (context : Context) (resolved : Core.Procedure)
    (after headed entered : Context) : Prop where
  fresh : context.table.declaredHere declared.name.lexeme = false
  heading : declared.parameterNames.foldlM (Context.declareCell .parameter)
    { context with table := context.table.enterScope declared.name.lexeme } = .ok headed
  entering : declared.localNames.foldlM (Context.declareCell .var)
    (headed.declareProcedure declared.name.token (declared.parameterNames.map (·.1))) = .ok entered
  body : declared.body.resolve entered.table = .ok resolved.body
  firstCell : resolved.firstCell = context.cells
  parameterCount : resolved.parameterCount = declared.parameterNames.length
  localCount : resolved.localCount = declared.localNames.length
  leaving : after = entered.closeProcedure

theorem Procedure.of_resolve {declared : Procedure} {context after : Context}
    {resolved : Core.Procedure} (done : declared.resolve context = .ok (resolved, after)) :
    ∃ headed entered, declared.Resolved context resolved after headed entered := by
  unfold Procedure.resolve at done
  cases opening : context.openProcedure declared.name.token with
  | error error => simp [opening, bind, Except.bind] at done
  | ok opened =>
    obtain ⟨fresh, rfl⟩ := Context.of_openProcedure opening
    rw [opening] at done
    simp only [bind, Except.bind] at done
    split at done
    · cases done
    next headed heading =>
      split at done
      · cases done
      next entered entering =>
        split at done
        · cases done
        next body resolvedBody =>
          cases done
          exact ⟨headed, entered, fresh, heading, entering, resolvedBody, rfl, rfl, rfl, rfl⟩

variable {declared : Procedure} {context after headed entered : Context} {resolved : Core.Procedure}

theorem Procedure.Resolved.headedFits
    (steps : declared.Resolved context resolved after headed entered) (fits : context.Fits) :
    headed.Fits :=
  Context.Fits.declareCells
    (show Context.Fits { context with table := context.table.enterScope declared.name.lexeme }
      from fits) (by simp) steps.heading

theorem Procedure.Resolved.enteredFits
    (steps : declared.Resolved context resolved after headed entered) (fits : context.Fits) :
    entered.Fits :=
  ((steps.headedFits fits).declareProcedure _ _).declareCells (by simp) steps.entering

theorem Procedure.Resolved.afterFits
    (steps : declared.Resolved context resolved after headed entered) (fits : context.Fits) :
    after.Fits := by
  rw [steps.leaving]
  exact (steps.enteredFits fits).closeProcedure

theorem Procedure.Resolved.parameterCounts
    (steps : declared.Resolved context resolved after headed entered) :
    after.parameterCounts = context.parameterCounts ++ [resolved.parameterCount] := by
  have ofHeading := Context.parameterCounts_of_declareCells steps.heading
  have ofEntering := Context.parameterCounts_of_declareCells steps.entering
  simp only at ofHeading
  simp [steps.leaving, Context.closeProcedure, ofEntering, Context.declareProcedure, ofHeading,
    steps.parameterCount]

theorem of_resolveItems_variables {vars : Variables} {rest : List Item} {context final : Context}
    {core : List Core.Item}
    (done : resolveItems (.vars vars :: rest) context = .ok (core, final)) :
    ∃ after others,
      vars.typed.declared.foldlM (Context.declareCell .var) context = .ok after ∧
      resolveItems rest after = .ok (others, final) ∧
      core = .vars vars.typed.declared.length :: others := by
  rw [resolveItems] at done
  simp only [bind, Except.bind] at done
  split at done
  · cases done
  next after entering =>
    split at done
    · cases done
    next resolved resolving =>
      cases done
      exact ⟨after, resolved.1, entering, resolving, rfl⟩

theorem of_resolveItems_procedure {declared : Procedure} {rest : List Item} {context final : Context}
    {core : List Core.Item}
    (done : resolveItems (.procedure declared :: rest) context = .ok (core, final)) :
    ∃ resolved after others, declared.resolve context = .ok (resolved, after) ∧
      resolveItems rest after = .ok (others, final) ∧ core = .procedure resolved :: others := by
  rw [resolveItems] at done
  simp only [bind, Except.bind] at done
  split at done
  · cases done
  next first firstResolving =>
    split at done
    · cases done
    next resolved resolving =>
      cases done
      exact ⟨first.1, first.2, resolved.1, firstResolving, resolving, rfl⟩

theorem of_resolveItems_append {front back : List Item} {context final : Context}
    {core : List Core.Item} (done : resolveItems (front ++ back) context = .ok (core, final)) :
    ∃ coreFront middle coreBack, resolveItems front context = .ok (coreFront, middle) ∧
      resolveItems back middle = .ok (coreBack, final) ∧ core = coreFront ++ coreBack := by
  induction front generalizing context core with
  | nil => exact ⟨[], context, core, rfl, done, rfl⟩
  | cons item rest ih =>
    cases item with
    | vars vars =>
      obtain ⟨after, others, entering, resolving, rfl⟩ := of_resolveItems_variables done
      obtain ⟨coreFront, middle, coreBack, ofFront, ofBack, rfl⟩ := ih resolving
      refine ⟨.vars vars.typed.declared.length :: coreFront, middle, coreBack, ?_, ofBack, rfl⟩
      simp [resolveItems, entering, ofFront, bind, Except.bind]
    | procedure declared =>
      obtain ⟨resolved, after, others, first, resolving, rfl⟩ := of_resolveItems_procedure done
      obtain ⟨coreFront, middle, coreBack, ofFront, ofBack, rfl⟩ := ih resolving
      refine ⟨.procedure resolved :: coreFront, middle, coreBack, ?_, ofBack, rfl⟩
      simp [resolveItems, first, ofFront, bind, Except.bind]

theorem Program.of_resolve {program : Program} {core : Core.Program} {context : Context}
    (done : program.resolve = .ok (core, context)) :
    resolveItems program.items {} = .ok (core.items, context) ∧
      program.body.resolve context.table = .ok core.body := by
  unfold Program.resolve at done
  simp only [bind, Except.bind] at done
  split at done
  · cases done
  next resolved resolving =>
    split at done
    · cases done
    next body resolvedBody =>
      cases done
      exact ⟨resolving, resolvedBody⟩

theorem fits_of_resolveItems {items : List Item} {context final : Context} {core : List Core.Item}
    (done : resolveItems items context = .ok (core, final)) (fits : context.Fits) :
    final.Fits ∧ final.parameterCounts =
      context.parameterCounts ++ (Core.procedures core).map (·.parameterCount) := by
  induction items generalizing context core with
  | nil =>
    cases done
    exact ⟨fits, by simp [Core.procedures]⟩
  | cons item rest ih =>
    cases item with
    | vars vars =>
      obtain ⟨after, others, entering, resolving, rfl⟩ := of_resolveItems_variables done
      obtain ⟨finalFits, counts⟩ := ih resolving (fits.declareCells (by simp) entering)
      rw [Context.parameterCounts_of_declareCells entering] at counts
      exact ⟨finalFits, counts⟩
    | procedure declared =>
      obtain ⟨resolved, after, others, first, resolving, rfl⟩ := of_resolveItems_procedure done
      obtain ⟨headed, entered, steps⟩ := Procedure.of_resolve first
      obtain ⟨finalFits, counts⟩ := ih resolving (steps.afterFits fits)
      rw [steps.parameterCounts] at counts
      exact ⟨finalFits, by simp [counts, Core.procedures]⟩

end Tree

end Pascalet
