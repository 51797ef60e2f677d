import Pascalet.Proofs.Calls.Text

namespace Pascalet

namespace SymbolTable

def NamesCell (table : SymbolTable) (name : Token) (cell : Nat) : Prop :=
  ∃ symbol, table.lookup? name.lexeme = some symbol ∧ symbol.isProcedure = false ∧
    symbol.address.toNat = cell

/-- The names of a call stand for a procedure with this number, which has as many parameters, and for
these cells. -/
structure NamesCall (table : SymbolTable) (written : Tree.Call) (call : Core.Call) : Prop where
  scope : written.scope = table.scope
  procedure : ∃ symbol, table.lookup? written.procedure.lexeme = some symbol ∧
    symbol.isProcedure = true ∧ symbol.address.toNat = call.procedure ∧
    written.arguments.length = symbol.parameters.length
  arguments : List.Forall₂ table.NamesCell written.arguments call.arguments

variable {table other : SymbolTable}

theorem gives_namesCell (name : Token) : Gives (table.cell name) (table.NamesCell name) := by
  refine (gives_lookup name).bind fun symbol lookup => ?_
  intro cell same
  split at same
  · cases same
  next isCell =>
    cases same
    exact ⟨symbol, lookup, Bool.eq_false_iff.mpr isCell, rfl⟩

theorem gives_namesCall (name : Token) (arguments : List Token) :
    Gives (table.call name arguments) fun command =>
      List.Forall₂ table.NamesCall [⟨table.scope, name, arguments⟩] command.calls := by
  refine (gives_lookup name).bind fun symbol lookup => ?_
  intro command same
  split at same
  next procedure =>
    split at same
    · cases same
    next counted =>
      have given : Gives (arguments.mapM table.cell >>= fun cells =>
          .ok (.call symbol.address.toNat cells)) fun command : Core.Command =>
          List.Forall₂ table.NamesCall [⟨table.scope, name, arguments⟩] command.calls :=
        (Gives.mapM_forall₂ fun name (_ : name ∈ arguments) => gives_namesCell name).bind fun cells known => .ok (.cons
          ⟨rfl, ⟨symbol, lookup, procedure, rfl, Decidable.not_not.mp counted⟩, known⟩ .nil)
      exact given command same
  · cases same

def Keeps (table other : SymbolTable) : Prop :=
  ∀ name symbol, table.lookup? name = some symbol → other.lookup? name = some symbol

theorem NamesCell.mono {name : Token} {cell : Nat} (names : table.NamesCell name cell)
    (keeps : table.Keeps other) : other.NamesCell name cell := by
  obtain ⟨symbol, lookup, facts⟩ := names
  exact ⟨symbol, keeps _ _ lookup, facts⟩

theorem NamesCall.mono {written : Tree.Call} {call : Core.Call} (names : table.NamesCall written call)
    (keeps : table.Keeps (other.enterScope table.scope)) :
    (other.enterScope written.scope).NamesCall written call := by
  obtain ⟨scope, ⟨symbol, lookup, facts⟩, arguments⟩ := names
  rw [← scope] at keeps
  exact ⟨rfl, ⟨symbol, keeps _ _ lookup, facts⟩, arguments.imp fun _ _ named => named.mono keeps⟩

theorem findIn?_eq_find?_inScope (scope name : String) :
    table.findIn? scope name = (table.inScope scope).find? (·.name == name) := by
  rw [findIn?, inScope, List.find?_filter]
  congr 1
  funext symbol
  rw [Bool.eq_iff_iff]
  simp [and_comm]

theorem findIn?_of_append {more : List Symbol} (grown : other.symbols = table.symbols ++ more)
    {scope name : String} {symbol : Symbol} (found : table.findIn? scope name = some symbol) :
    other.findIn? scope name = some symbol := by
  rw [findIn?, grown, List.find?_append]
  rw [findIn?] at found
  rw [found]
  rfl

theorem keeps_of_append {more : List Symbol} (grown : other.symbols = table.symbols ++ more)
    (complete : table.scope = globalScope ∨ other.inScope table.scope = table.inScope table.scope) :
    table.Keeps (other.enterScope table.scope) := by
  intro name symbol lookup
  rcases Option.or_eq_some_iff.mp lookup with here | ⟨notHere, outside⟩
  · have found : other.findIn? table.scope name = some symbol := findIn?_of_append grown here
    exact Option.or_eq_some_iff.mpr (.inl found)
  · have found : other.findIn? globalScope name = some symbol := findIn?_of_append grown outside
    rcases complete with isGlobal | same
    · rw [isGlobal, outside] at notHere
      cases notHere
    · have none : other.findIn? table.scope name = none := by
        rwa [findIn?_eq_find?_inScope, same, ← findIn?_eq_find?_inScope]
      exact Option.or_eq_some_iff.mpr (.inr ⟨none, found⟩)

end SymbolTable

theorem Core.Command.calls_inOrder {commands : List Core.Command}
    (none : ∀ command ∈ commands, command.calls = []) : (inOrder commands).calls = [] := by
  induction commands with
  | nil => rfl
  | cons command rest ih =>
    rw [List.forall_mem_cons] at none
    rw [inOrder, calls, none.1, ih none.2]
    rfl

namespace Tree

variable (table : SymbolTable)

mutual

theorem Statement.gives_calls (statement : Statement) :
    Gives (statement.resolve table) fun command =>
      List.Forall₂ table.NamesCall (statement.calls table.scope) command.calls := by
  cases statement with
  | read word targets =>
    refine Gives.bind (fun _ _ => trivial) fun cells (_ : True) => .ok ?_
    rw [Core.Command.calls_inOrder (by simp [Core.Command.calls])]
    exact .nil
  | write word left first rest right =>
    refine Gives.bind (fun _ _ => trivial) fun value (_ : True) =>
      Gives.bind (fun _ _ => trivial) fun values (_ : True) => .ok ?_
    rw [Core.Command.calls, Core.Command.calls_inOrder (by simp [Core.Command.calls])]
    exact .nil
  | choose word condition thenWord body close =>
    refine Gives.bind (fun _ _ => trivial) fun tested (_ : True) =>
      (Statements.gives_calls body).bind fun chosen calls => .ok ?_
    rw [Core.Command.calls, Core.Command.calls, List.append_nil]
    exact calls
  | chooseElse word condition thenWord body elseWord other close =>
    exact Gives.bind (fun _ _ => trivial) fun tested (_ : True) =>
      (Statements.gives_calls body).bind fun chosen calls =>
        (Statements.gives_calls other).bind fun alternative others => .ok (List.rel_append calls others)
  | loop word condition doWord body close =>
    exact Gives.bind (fun _ _ => trivial) fun tested (_ : True) =>
      (Statements.gives_calls body).bind fun repeated calls => .ok calls
  | assign target sign value =>
    exact Gives.bind (fun _ _ => trivial) fun address (_ : True) =>
      Gives.bind (fun _ _ => trivial) fun assigned (_ : True) => .ok .nil
  | call procedure arguments => exact SymbolTable.gives_namesCall procedure.token _

theorem Statements.gives_calls (statements : Statements) :
    Gives (statements.resolve table) fun command =>
      List.Forall₂ table.NamesCall (statements.calls table.scope) command.calls := by
  cases statements with
  | empty => exact .ok .nil
  | last statement => exact Statement.gives_calls statement
  | skip semicolon rest => exact Statements.gives_calls rest
  | more statement semicolon rest =>
    exact (Statement.gives_calls statement).bind fun first calls =>
      (Statements.gives_calls rest).bind fun second others => .ok (List.rel_append calls others)

end

end Tree

def Context.NamesCall (context : Context) (written : Tree.Call) (call : Core.Call) : Prop :=
  (context.table.enterScope written.scope).NamesCall written call

namespace Tree

variable {items : List Item} {context after headed entered final : Context} {core : List Core.Item}
  {declared : Procedure} {resolved : Core.Procedure}

theorem Procedure.Resolved.keeps (steps : declared.Resolved context resolved after headed entered)
    (fits : context.Fits) (done : resolveItems items after = .ok (core, final)) :
    entered.table.Keeps (final.table.enterScope entered.table.scope) := by
  obtain ⟨more, grown⟩ := symbols_of_resolveItems done
  have sameSymbols : after.table.symbols = entered.table.symbols := by
    rw [steps.table.1, steps.table.2]
  have sameScope : entered.table.scope = declared.name.lexeme := by rw [steps.table.1]
  rw [sameSymbols] at grown
  apply SymbolTable.keeps_of_append grown
  by_cases isGlobal : declared.name.lexeme = globalScope
  · exact .inl (sameScope.trans isGlobal)
  · right
    have kept := (hides_of_resolveItems done (steps.hides fits) isGlobal).2.2
    rw [sameScope, kept]
    simp only [SymbolTable.inScope, sameSymbols]

theorem calls_of_resolveItems (done : resolveItems items context = .ok (core, final))
    (fits : context.Fits) :
    List.Forall₂ final.NamesCall (items.flatMap Item.calls) (core.flatMap Core.Item.calls) := by
  induction items generalizing context core with
  | nil =>
    cases done
    exact .nil
  | cons item rest ih =>
    cases item with
    | vars vars =>
      obtain ⟨after, others, entering, resolving, rfl⟩ := of_resolveItems_variables done
      have later := ih resolving (fits.declareCells (by simp) entering)
      exact later
    | procedure declared =>
      obtain ⟨resolved, after, others, first, resolving, rfl⟩ := of_resolveItems_procedure done
      obtain ⟨headed, entered, steps⟩ := Procedure.of_resolve first
      have sameScope : entered.table.scope = declared.name.lexeme := by rw [steps.table.1]
      have own := declared.body.gives_calls entered.table _ steps.body
      rw [sameScope] at own
      refine List.rel_append (own.imp fun written call names => ?_)
        (ih resolving (steps.afterFits fits))
      exact names.mono (steps.keeps fits resolving)

/-- The calls of a tree are those of its core program, and the names in them have kept their meaning. -/
theorem Program.calls_of_resolve {tree : Program} {core : Core.Program}
    (done : tree.resolve = .ok (core, final)) :
    List.Forall₂ final.NamesCall tree.calls core.calls := by
  obtain ⟨ofItems, ofBody⟩ := of_resolve done
  have isGlobal : final.table.scope = globalScope :=
    (owned_of_resolveItems ofItems ⟨rfl, by simp⟩).scope
  have own := tree.body.gives_calls final.table _ ofBody
  rw [isGlobal] at own
  refine List.rel_append (calls_of_resolveItems ofItems Context.fits_empty)
    (own.imp fun written call names => ?_)
  exact names.mono (SymbolTable.keeps_of_append (List.append_nil _).symm (.inl isGlobal))

end Tree

end Pascalet
