import Pascalet.Proofs.Core.Symbols
import Pascalet.Proofs.Core.Within
import Pascalet.Proofs.Recognition.Sentence
import Pascalet.Proofs.Scoping.Rules

namespace Pascalet

def SymbolTable.Has (table : SymbolTable) (scope name : String) : Prop :=
  ∃ symbol ∈ table.symbols, symbol.name = name ∧ symbol.scope = scope

theorem SymbolTable.not_has_of_declaredHere {table : SymbolTable} {name : String}
    (fresh : table.declaredHere name = false) : ¬ table.Has table.scope name := by
  rintro ⟨symbol, found, sameName, sameScope⟩
  simp only [declaredHere, findIn?, Option.isSome_eq_false_iff, Option.isNone_iff_eq_none,
    List.find?_eq_none] at fresh
  exact fresh symbol found (by simp [sameName, sameScope])

theorem SymbolTable.Has.append {table : SymbolTable} {scope name : String}
    (has : table.Has scope name) (more : List Symbol) (current : String) :
    SymbolTable.Has ⟨table.symbols ++ more, current⟩ scope name := by
  obtain ⟨symbol, found, named⟩ := has
  exact ⟨symbol, List.mem_append_left more found, named⟩

theorem SymbolTable.inScope_append {table : SymbolTable} {scope current : String}
    {more : List Symbol} (foreign : ∀ symbol ∈ more, symbol.scope ≠ scope) :
    inScope ⟨table.symbols ++ more, current⟩ scope = table.inScope scope := by
  have none : more.filter (·.scope == scope) = [] := by
    rw [List.filter_eq_nil_iff]
    intro symbol found
    simpa using foreign symbol found
  rw [inScope, inScope, List.filter_append, none, List.append_nil]

/-- Among these symbols, only those of one scope have certain cells. -/
def Hidden (owner : String) (low high : Nat) (symbols : List Symbol) : Prop :=
  ∀ symbol ∈ symbols, symbol.isProcedure = false →
    low ≤ symbol.address.toNat → symbol.address.toNat < high → symbol.scope = owner

namespace Context

variable {context after final : Context} {owner : String} {low high : Nat}

structure Owned (context : Context) : Prop where
  scope : context.table.scope = globalScope
  owned : ∀ symbol ∈ context.table.symbols, symbol.scope = globalScope ∨
    context.table.Has globalScope symbol.scope

/-- The cells of a procedure that was declared belong to its scope alone, and none of them is free. -/
structure Hides (context : Context) (owner : String) (low high : Nat) : Prop where
  scope : context.table.scope = globalScope
  declared : context.table.Has globalScope owner
  above : high ≤ context.cells
  hidden : Hidden owner low high context.table.symbols

theorem Owned.variables {vars : Tree.Variables} (owned : context.Owned)
    (done : vars.typed.declared.foldlM (declareCell .var) context = .ok after) : after.Owned := by
  have table := table_of_declareCells done
  rw [owned.scope] at table
  refine ⟨by rw [table], ?_⟩
  rw [table]
  intro symbol found
  rcases List.mem_append.mp found with old | new
  · exact (owned.owned symbol old).imp_right fun has => has.append _ _
  · exact .inl (of_mem_cellSymbols new).2.1

end Context

open Context

namespace Tree

variable {declared : Procedure} {context after headed entered : Context} {resolved : Core.Procedure}
  {owner : String} {low high : Nat}

theorem Procedure.has_symbol (symbols : List Symbol) (current : String) :
    SymbolTable.Has ⟨symbols ++ declared.symbols context, current⟩ globalScope declared.name.lexeme :=
  ⟨declared.symbol context.parameterCounts.length, by simp [Procedure.symbols], rfl, rfl⟩

theorem Procedure.Resolved.owned (steps : declared.Resolved context resolved after headed entered)
    (owned : context.Owned) : after.Owned := by
  obtain ⟨_, table⟩ := steps.table
  refine ⟨by rw [table], ?_⟩
  rw [table]
  intro symbol found
  rcases List.mem_append.mp found with old | new
  · exact (owned.owned symbol old).imp_right fun has => has.append _ _
  · rcases Procedure.of_mem_symbols new with rfl | own
    · exact .inl rfl
    · rw [(Procedure.of_mem_ownSymbols own).2.1]
      exact .inr (Procedure.has_symbol _ _)

theorem owned_of_resolveItems {items : List Item} {context final : Context} {core : List Core.Item}
    (done : resolveItems items context = .ok (core, final)) (owned : context.Owned) :
    final.Owned := by
  induction items generalizing context core with
  | nil =>
    cases done
    exact owned
  | cons item rest ih =>
    cases item with
    | vars vars =>
      obtain ⟨after, others, entering, resolving, _⟩ := of_resolveItems_variables done
      exact ih resolving (owned.variables entering)
    | procedure declared =>
      obtain ⟨resolved, after, others, first, resolving, _⟩ := of_resolveItems_procedure done
      obtain ⟨headed, entered, steps⟩ := Procedure.of_resolve first
      exact ih resolving (steps.owned owned)

theorem Procedure.Resolved.hides (steps : declared.Resolved context resolved after headed entered)
    (fits : context.Fits) : after.Hides declared.name.lexeme context.cells after.cells := by
  obtain ⟨_, table⟩ := steps.table
  refine ⟨by rw [table], table ▸ Procedure.has_symbol _ _, Nat.le_refl _, ?_⟩
  rw [table]
  intro symbol found other above _
  rcases List.mem_append.mp found with old | new
  · obtain ⟨number, address, _, bounded⟩ := fits symbol old
    have inside := bounded other
    omega
  · rcases Procedure.of_mem_symbols new with rfl | own
    · cases other
    · exact (Procedure.of_mem_ownSymbols own).2.1

end Tree

namespace Context

variable {context after final : Context} {owner : String} {low high : Nat}

theorem gives_cell_hidden {table : SymbolTable} (notGlobal : owner ≠ globalScope)
    (elsewhere : table.scope ≠ owner) (hidden : Hidden owner low high table.symbols)
    (name : Token) : Gives (table.cell name) fun cell => ¬ (low ≤ cell ∧ cell < high) := by
  have visible : Gives (table.denoted name) fun symbol =>
      symbol ∈ table.symbols ∧ (symbol.scope = table.scope ∨ symbol.scope = globalScope) := by
    intro symbol found
    unfold SymbolTable.denoted at found
    split at found
    next lookup =>
      cases found
      refine ⟨SymbolTable.mem_of_lookup? lookup, ?_⟩
      rcases Option.or_eq_some_iff.mp lookup with here | ⟨_, outside⟩
      · have matched := List.find?_some here
        simp only [Bool.and_eq_true, beq_iff_eq] at matched
        exact .inl matched.2
      · have matched := List.find?_some outside
        simp only [Bool.and_eq_true, beq_iff_eq] at matched
        exact .inr matched.2
    · cases found
  refine visible.bind fun symbol known => ?_
  intro cell same
  split at same
  · cases same
  next other =>
    cases same
    rintro ⟨above, below⟩
    have scope := hidden symbol known.1 (Bool.eq_false_iff.mpr other) above below
    rcases known.2 with here | outside
    · exact elsewhere (here.symm.trans scope)
    · exact notGlobal (scope.symm.trans outside)

theorem Hides.variables {vars : Tree.Variables} (hides : context.Hides owner low high)
    (done : vars.typed.declared.foldlM (declareCell .var) context = .ok after) :
    after.Hides owner low high := by
  have table := table_of_declareCells done
  have cells := cells_of_declareCells done
  have above := hides.above
  refine ⟨by rw [table]; exact hides.scope, table ▸ hides.declared.append _ _, by omega, ?_⟩
  rw [table]
  intro symbol found other low high
  rcases List.mem_append.mp found with old | new
  · exact hides.hidden symbol old other low high
  · obtain ⟨_, _, cell, address, _, _⟩ := of_mem_cellSymbols new
    omega

end Context

namespace Tree

variable {declared : Procedure} {context after headed entered : Context} {resolved : Core.Procedure}
  {owner : String} {low high : Nat}

theorem Procedure.Resolved.hides_later
    (steps : declared.Resolved context resolved after headed entered)
    (hides : context.Hides owner low high) (notGlobal : owner ≠ globalScope) :
    declared.name.lexeme ≠ owner ∧ after.Hides owner low high ∧
      resolved.Within fun cell => ¬ (low ≤ cell ∧ cell < high) := by
  have above := hides.above
  have different : declared.name.lexeme ≠ owner := by
    rintro rfl
    have fresh := SymbolTable.not_has_of_declaredHere steps.fresh
    rw [hides.scope] at fresh
    exact fresh hides.declared
  obtain ⟨inside, outside⟩ := steps.table
  have hidden : Hidden owner low high (context.table.symbols ++ declared.symbols context) := by
    intro symbol found other low high
    rcases List.mem_append.mp found with old | new
    · exact hides.hidden symbol old other low high
    · rcases Procedure.of_mem_symbols new with rfl | own
      · cases other
      · obtain ⟨_, _, cell, address, _⟩ := Procedure.of_mem_ownSymbols own
        omega
  have cells := steps.cells
  refine ⟨different, ?_, ?_, ?_⟩
  · exact ⟨by rw [outside], outside ▸ hides.declared.append _ _, by omega, by rwa [outside]⟩
  · intro address behind
    rw [steps.firstCell] at behind
    omega
  · have elsewhere : entered.table.scope ≠ owner := by rwa [inside]
    have hiddenInside : Hidden owner low high entered.table.symbols := by rwa [inside]
    exact declared.body.gives_within (gives_cell_hidden notGlobal elsewhere hiddenInside) _ steps.body

theorem hides_of_resolveItems {items : List Item} {context final : Context} {core : List Core.Item}
    (done : resolveItems items context = .ok (core, final)) (hides : context.Hides owner low high)
    (notGlobal : owner ≠ globalScope) :
    final.Hides owner low high ∧
      (∀ procedure ∈ Core.procedures core,
        procedure.Within fun cell => ¬ (low ≤ cell ∧ cell < high)) ∧
      final.table.inScope owner = context.table.inScope owner := by
  induction items generalizing context core with
  | nil =>
    cases done
    exact ⟨hides, by simp [Core.procedures], rfl⟩
  | cons item rest ih =>
    cases item with
    | vars vars =>
      obtain ⟨after, others, entering, resolving, rfl⟩ := of_resolveItems_variables done
      obtain ⟨finalHides, within, symbols⟩ := ih resolving (hides.variables entering)
      refine ⟨finalHides, within, symbols.trans ?_⟩
      rw [table_of_declareCells entering]
      apply SymbolTable.inScope_append
      intro symbol found
      rw [(of_mem_cellSymbols found).2.1, hides.scope]
      exact notGlobal.symm
    | procedure declared =>
      obtain ⟨resolved, after, others, first, resolving, rfl⟩ := of_resolveItems_procedure done
      obtain ⟨headed, entered, steps⟩ := Procedure.of_resolve first
      obtain ⟨different, afterHides, own⟩ := steps.hides_later hides notGlobal
      obtain ⟨finalHides, within, symbols⟩ := ih resolving afterHides
      refine ⟨finalHides, ?_, symbols.trans ?_⟩
      · rw [Core.procedures, List.forall_mem_cons]
        exact ⟨own, within⟩
      · rw [steps.table.2]
        apply SymbolTable.inScope_append
        intro symbol found
        rcases Procedure.of_mem_symbols found with rfl | own
        · exact notGlobal.symm
        · rw [(Procedure.of_mem_ownSymbols own).2.1]
          exact different

theorem Procedure.Resolved.inScope (steps : declared.Resolved context resolved after headed entered)
    (owned : context.Owned) (notGlobal : declared.name.lexeme ≠ globalScope) :
    after.table.inScope declared.name.lexeme = declared.ownSymbols context.cells := by
  have none : context.table.inScope declared.name.lexeme = [] := by
    apply List.filter_eq_nil_iff.mpr
    intro symbol found same
    have scope : symbol.scope = declared.name.lexeme := by simpa using same
    rcases owned.owned symbol found with isGlobal | has
    · exact notGlobal (scope.symm.trans isGlobal)
    · have fresh := SymbolTable.not_has_of_declaredHere steps.fresh
      rw [owned.scope] at fresh
      exact fresh (scope ▸ has)
  have own : (declared.symbols context).filter (·.scope == declared.name.lexeme) =
      declared.ownSymbols context.cells := by
    have kept : ∀ symbol ∈ declared.ownSymbols context.cells,
        (symbol.scope == declared.name.lexeme) = true :=
      fun symbol found => beq_iff_eq.mpr (Procedure.of_mem_ownSymbols found).2.1
    have dropped : ((declared.symbol context.parameterCounts.length).scope ==
        declared.name.lexeme) = false := beq_false_of_ne notGlobal.symm
    rw [Procedure.ownSymbols, List.forall_mem_append] at kept
    rw [Procedure.symbols, List.filter_append, List.filter_cons, dropped,
      if_neg Bool.false_ne_true, List.filter_eq_self.mpr kept.1, List.filter_eq_self.mpr kept.2,
      Procedure.ownSymbols]
  rw [steps.table.2]
  unfold SymbolTable.inScope at none ⊢
  rw [List.filter_append, none, List.nil_append, own]

theorem Procedure.name_ownSymbols (declared : Procedure) (firstCell : Nat) :
    (declared.ownSymbols firstCell).map (·.name) = declared.ownNames := by
  rw [ownSymbols, List.map_append, name_cellSymbols, name_cellSymbols, ownNames, List.map_append]

theorem Procedure.place_ownSymbols (declared : Procedure) (firstCell : Nat) (entries : List Nat) :
    (declared.ownSymbols firstCell).map (Symbol.place entries) = declared.ownSymbols firstCell := by
  have same : ∀ symbol ∈ declared.ownSymbols firstCell, symbol.place entries = symbol :=
    fun symbol found => Symbol.place_of_not_procedure (of_mem_ownSymbols found).1
  rw [List.map_congr_left same, List.map_id']

theorem Program.exists_procedure {tree : Program} {core : Core.Program} {final : Context}
    (resolved : tree.resolve = .ok (core, final)) (member : .procedure declared ∈ tree.items) :
    ∃ before procedure after start headed entered behind items,
      core.items = before ++ .procedure procedure :: after ∧
      declared.Resolved start procedure behind headed entered ∧
      resolveItems items behind = .ok (after, final) ∧
      start.Owned ∧ start.Fits ∧
      start.parameterCounts.length = (Core.procedures before).length ∧
      ∀ allowed : Nat → Prop, (∀ cell, cell < start.cells → allowed cell) →
        ∀ procedure ∈ Core.procedures before, procedure.Within allowed := by
  obtain ⟨front, back, split⟩ := List.append_of_mem member
  have ofItems := (Program.of_resolve resolved).1
  rw [split] at ofItems
  obtain ⟨before, start, rest, ofFront, ofRest, items⟩ := of_resolveItems_append ofItems
  obtain ⟨procedure, behind, after, first, ofBack, rfl⟩ := of_resolveItems_procedure ofRest
  obtain ⟨headed, entered, steps⟩ := Procedure.of_resolve first
  have empty : ({} : Context).Owned := ⟨rfl, by simp⟩
  obtain ⟨fits, counts⟩ := fits_of_resolveItems ofFront Context.fits_empty
  exact ⟨before, procedure, after, start, headed, entered, behind, back, items, steps, ofBack,
    owned_of_resolveItems ofFront empty, fits, by simp [counts],
    fun _ => within_of_resolveItems ofFront Context.fits_empty⟩

end Tree

theorem SymbolTable.inScope_place (table : SymbolTable) (entries : List Nat) (scope : String) :
    (table.place entries).inScope scope = (table.inScope scope).map (Symbol.place entries) := by
  simp only [inScope, place, List.filter_map]
  congr 1
  apply List.filter_congr
  intro symbol _
  simp

/-- A procedure from its entry to the return at its end, which is the first one behind the entry. -/
structure Buffer.Extent (code : Buffer) (entry last : Nat) : Prop where
  ordered : entry ≤ last
  returns : code.instructions[last]? = some ⟨.ret, .absent⟩
  inside : ∀ index, entry ≤ index → index < last → ∀ instruction,
    code.instructions[index]? = some instruction → instruction.opcode ≠ .ret

theorem Buffer.extent_of_split {code : Buffer} {front inside back : List Instruction}
    (split : code.instructions.toList = front ++ (inside ++ [⟨.ret, .absent⟩]) ++ back)
    (other : ∀ instruction ∈ inside, instruction.opcode ≠ .ret) :
    code.Extent front.length (front.length + inside.length) := by
  refine ⟨by omega, ?_, ?_⟩
  · rw [← Array.getElem?_toList, split]
    simp
  · intro index behind before instruction found
    rw [← Array.getElem?_toList, split, List.append_assoc, List.getElem?_append_right behind,
      List.append_assoc, List.getElem?_append_left (by omega)] at found
    exact other instruction (List.mem_of_getElem? found)

theorem Buffer.extent_of_code {code : Buffer} {front back : List Instruction}
    {procedure : Core.Procedure} {entries : List Nat}
    (split : code.instructions.toList = front ++ procedure.code entries front.length ++ back) :
    code.Extent front.length (front.length + (procedure.size - 1)) := by
  have inner {block : List Instruction} (all : Core.AllInner block) :
      ∀ instruction ∈ block, instruction.opcode ≠ .ret := by
    intro instruction found same
    have contradiction := all instruction found
    rw [same] at contradiction
    cases contradiction
  let body := procedure.body.code entries
    (front.length + procedure.parameterCount + procedure.localCount)
  let inside := Core.storeAll procedure.firstCell procedure.parameterCount ++
    Core.reserveAll procedure.localCount ++ body ++
    [⟨.release, .integer (procedure.parameterCount + procedure.localCount : Nat)⟩]
  have ending : procedure.code entries front.length = inside ++ [⟨.ret, .absent⟩] := by
    simp [Core.Procedure.code, inside, body]
  have length : inside.length = procedure.size - 1 := by
    rw [← Core.Procedure.length_code entries front.length, ending]
    simp
  rw [ending] at split
  rw [← length]
  apply extent_of_split split
  simp only [inside, List.forall_mem_append, List.forall_mem_singleton]
  refine ⟨⟨⟨inner (Core.allInner_storeAll _ _), ?_⟩, inner (Core.Command.allInner_code _ _ _)⟩, by simp⟩
  intro instruction found
  rw [(List.mem_replicate.mp found).2]
  simp

namespace Program

variable {source : String} {program : Program} {tree : Tree.Program} {declared : Tree.Procedure}

/-- The parameters and variables of a procedure are the symbols of its scope, and no instruction outside
of the procedure uses their cells. -/
theorem locals_are_private (compiled : compile source = .ok program)
    (spells : tree.Spells (tokenize source).tokens) (member : .procedure declared ∈ tree.items)
    (notGlobal : declared.name.lexeme ≠ globalScope) :
    (program.symbols.inScope declared.name.lexeme).map (·.name) = declared.ownNames ∧
    ∃ entry last : Nat,
      (∃ symbol ∈ program.symbols.symbols, symbol.name = declared.name.lexeme ∧
        symbol.scope = globalScope ∧ symbol.category = .procedure ∧ symbol.address = entry) ∧
      program.code.Extent entry last ∧
      ∀ symbol ∈ program.symbols.inScope declared.name.lexeme,
        ∀ (index : Nat) (opcode : Opcode), opcode.hasAddress = true →
          program.code.instructions[index]? = some ⟨opcode, .integer symbol.address⟩ →
          entry ≤ index ∧ index ≤ last := by
  obtain ⟨core, context, resolved, rfl⟩ := exists_core_of_compile compiled spells
  obtain ⟨before, procedure, after, start, headed, entered, behind, items, split, steps, ofItems,
    owned, fits, number, beforeWithin⟩ := Tree.Program.exists_procedure resolved member
  obtain ⟨hides, afterWithin, sameScope⟩ :=
    Tree.hides_of_resolveItems ofItems (steps.hides fits) notGlobal
  have symbols : (core.assemble tree.name.lexeme context).symbols.inScope declared.name.lexeme =
      declared.ownSymbols start.cells := by
    have placed := SymbolTable.inScope_place context.table (core.entries 0) declared.name.lexeme
    rwa [sameScope, steps.inScope owned notGlobal, declared.place_ownSymbols] at placed
  have bodyWithin : core.body.Within fun cell => ¬ (start.cells ≤ cell ∧ cell < behind.cells) := by
    have elsewhere : context.table.scope ≠ declared.name.lexeme := hides.scope ▸ notGlobal.symm
    have cells := Context.gives_cell_hidden notGlobal elsewhere hides.hidden
    exact tree.body.gives_within cells _ (Tree.Program.of_resolve resolved).2
  obtain ⟨front, back, entries, code, entry, frontWithin, backWithin⟩ :=
    Core.Program.exists_code_split split (beforeWithin _ fun cell below => by omega) afterWithin
      bodyWithin
  have instructions : (core.assemble tree.name.lexeme context).code.instructions.toList =
      front ++ procedure.code entries front.length ++ back := code
  refine ⟨symbols ▸ declared.name_ownSymbols start.cells, front.length,
    front.length + (procedure.size - 1), ?_, Buffer.extent_of_code instructions, ?_⟩
  · refine ⟨(declared.symbol start.parameterCounts.length).place (core.entries 0), ?_, by simp; rfl,
      by simp; rfl, by simp; rfl, ?_⟩
    · obtain ⟨more, grown⟩ := Tree.symbols_of_resolveItems ofItems
      apply List.mem_map_of_mem
      rw [grown, steps.table.2]
      simp [Tree.Procedure.symbols]
    · rw [Symbol.address_place rfl]
      simp [Tree.Procedure.symbol, number, entry]
  · intro symbol found index opcode addressed fetched
    rw [symbols] at found
    obtain ⟨_, _, cell, address, above, below⟩ := Tree.Procedure.of_mem_ownSymbols found
    have cells := steps.cells
    rw [steps.parameterCount, steps.localCount] at cells
    rw [← Array.getElem?_toList, instructions, address] at fetched
    have outside : ¬ Instruction.Within (fun cell => ¬ (start.cells ≤ cell ∧ cell < behind.cells))
        ⟨opcode, .integer cell⟩ := fun within => within cell addressed rfl ⟨above, by omega⟩
    have between := Core.index_of_not_within frontWithin backWithin fetched outside
    rw [Core.Procedure.length_code] at between
    have size : 0 < procedure.size := Nat.succ_pos _
    omega

/-- A procedure with a parameter that is named like a variable of the program:
`procedure q(a: real); begin a := 1 end;` -/
def shadowing : Tree.Procedure where
  word := ⟨"procedure", 1⟩
  name := ⟨"q", 1⟩
  parameters := some
    { left := ⟨"(", 1⟩
      first := { names := ⟨⟨"a", 1⟩, []⟩, colon := ⟨":", 1⟩, type := .real ⟨"real", 1⟩ }
      rest := []
      right := ⟨")", 1⟩ }
  semicolon := some ⟨";", 1⟩
  locals := []
  beginWord := ⟨"begin", 1⟩
  body := .last (.assign ⟨"a", 1⟩ ⟨":=", 1⟩
    (.sum (.plain (.literal (.integer ⟨"1", 1⟩)) .done) .done))
  endWord := ⟨"end", 1⟩
  close := some ⟨";", 1⟩

def shadowingTree : Tree.Program where
  word := ⟨"program", 1⟩
  name := ⟨"p", 1⟩
  semicolon := some ⟨";", 1⟩
  declarations :=
    [.vars
      { word := ⟨"var", 1⟩
        typed := { names := ⟨⟨"a", 1⟩, []⟩, colon := ⟨":", 1⟩, type := .real ⟨"real", 1⟩ }
        semicolon := some ⟨";", 1⟩ },
      .procedures shadowing []]
  beginWord := ⟨"begin", 1⟩
  body := .last (.assign ⟨"a", 1⟩ ⟨":=", 1⟩
    (.sum (.plain (.literal (.integer ⟨"2", 1⟩)) .done) .done))
  endWord := ⟨"end", 1⟩
  dot := ⟨".", 1⟩

theorem locals_are_private_shadowing :
    ∃ program entry last,
      compile "program p; var a: real; procedure q(a: real); begin a := 1 end; begin a := 2 end." =
        .ok program ∧
      program.code.Extent entry last ∧
      ∀ (index : Nat) (opcode : Opcode), opcode.hasAddress = true →
        program.code.instructions[index]? = some ⟨opcode, .integer 1⟩ →
        entry ≤ index ∧ index ≤ last := by
  have checked : (compile
      "program p; var a: real; procedure q(a: real); begin a := 1 end; begin a := 2 end.").toOption.any
        (fun program => (program.symbols.inScope "q").any (·.address = 1)) = true := by
    decide +kernel
  have spells : shadowingTree.Spells (tokenize
      "program p; var a: real; procedure q(a: real); begin a := 1 end; begin a := 2 end.").tokens :=
    ⟨⟨"", 1⟩, by decide +kernel⟩
  obtain ⟨program, compiled, own⟩ := exists_of_any checked
  obtain ⟨symbol, found, address⟩ := List.any_eq_true.mp own
  have member : .procedure shadowing ∈ shadowingTree.items :=
    List.mem_cons_of_mem _ List.mem_cons_self
  obtain ⟨_, entry, last, _, extent, inside⟩ := locals_are_private compiled spells member (by decide)
  refine ⟨program, entry, last, compiled, extent, ?_⟩
  have uses := inside symbol found
  rwa [of_decide_eq_true address] at uses

/-- A procedure that is named like the global scope shares it. -/
theorem locals_not_private_global :
    ∃ program,
      compile "program p; procedure global(a: real); begin end; begin a := 1 end." = .ok program ∧
      program.symbols.symbols =
        [{ name := "a", type := some .real, category := .parameter, scope := "global", address := 0 },
          { name := "global", type := none, category := .procedure, scope := "global", address := 2,
            parameters := [.real] }] ∧
      program.code.Extent 2 4 ∧ program.code.instructions[6]? = some ⟨.store, .integer 0⟩ := by
  have checked : (compile
      "program p; procedure global(a: real); begin end; begin a := 1 end.").toOption.any
        (fun program => decide (program.symbols.symbols =
          [{ name := "a", type := some .real, category := .parameter, scope := "global", address := 0 },
            { name := "global", type := none, category := .procedure, scope := "global", address := 2,
              parameters := [.real] }]) &&
          decide (program.code.instructions.toList =
            [⟨.start, .absent⟩, ⟨.jump, .integer 5⟩] ++
              ([⟨.store, .integer 0⟩, ⟨.release, .integer 1⟩] ++ [⟨.ret, .absent⟩]) ++
              [⟨.constant, .text "1"⟩, ⟨.store, .integer 0⟩, ⟨.stop, .absent⟩])) = true := by
    decide +kernel
  obtain ⟨program, compiled, facts⟩ := exists_of_any checked
  rw [Bool.and_eq_true, decide_eq_true_eq, decide_eq_true_eq] at facts
  refine ⟨program, compiled, facts.1, Buffer.extent_of_split facts.2 (by simp), ?_⟩
  rw [← Array.getElem?_toList, facts.2]
  rfl

end Program

end Pascalet
