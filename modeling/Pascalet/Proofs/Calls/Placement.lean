import Mathlib.Data.List.Forall2
import Pascalet.Proofs.Calls.Region
import Pascalet.Proofs.Core.Order

namespace Pascalet

/-- A procedure and its symbol in some code. The jump stands right in front of the entry, and the cells
are released right before the return. -/
structure Buffer.Contains (code : Buffer) (declared : Tree.Procedure) (symbol : Symbol)
    (skip target last : Nat) : Prop where
  name : symbol.name = declared.name.lexeme
  types : symbol.parameters = declared.parameterNames.map (·.1)
  address : symbol.address = (skip + 1 : Nat)
  skips : code.instructions[skip]? = some ⟨.jump, .integer target⟩
  beyond : last < target
  extent : code.Extent (skip + 1) last
  releases : ∃ release, skip < release ∧ release + 1 = last ∧ code.instructions[release]? =
    some ⟨.release, .integer (declared.parameterNames.length + declared.localNames.length : Nat)⟩

namespace SymbolTable

variable {table : SymbolTable} {entries : List Nat}

theorem filter_place {keep : Symbol → Bool} (same : ∀ symbol, keep (symbol.place entries) = keep symbol) :
    (table.place entries).symbols.filter keep =
      (table.symbols.filter keep).map (Symbol.place entries) := by
  rw [place, List.filter_map]
  congr 1
  exact List.filter_congr fun symbol _ => same symbol

theorem filter_place_of_cells {keep : Symbol → Bool}
    (same : ∀ symbol, keep (symbol.place entries) = keep symbol)
    (cells : ∀ symbol, keep symbol = true → symbol.isProcedure = false) :
    (table.place entries).symbols.filter keep = table.symbols.filter keep := by
  have unplaced : ∀ symbol ∈ table.symbols.filter keep, symbol.place entries = symbol :=
    fun symbol found => Symbol.place_of_not_procedure (cells symbol (List.mem_filter.mp found).2)
  rw [filter_place same, List.map_congr_left unplaced, List.map_id']

theorem procedures_place :
    (table.place entries).procedures = table.procedures.map (Symbol.place entries) :=
  filter_place (by simp)

theorem cells_place : (table.place entries).cells = table.cells :=
  filter_place_of_cells (by simp) (by simp)

theorem parametersOf_place (name : String) :
    (table.place entries).parametersOf name = table.parametersOf name := by
  apply filter_place_of_cells
  · simp
  · intro symbol kept
    simp [Symbol.isProcedure, (of_decide_eq_true kept).1]

end SymbolTable

namespace Core

variable {code : Buffer} {start : Nat} {entries : List Nat} {front back : List Item}

theorem has_itemsCode_append (has : code.Has start (itemsCode entries start (front ++ back))) :
    code.Has (start + itemsSize front)
      (itemsCode (itemsEntries entries start front) (start + itemsSize front) back) := by
  induction front generalizing start entries with
  | nil => exact has
  | cons item rest ih =>
    cases item with
    | vars count =>
      have hasRest := has.append.2
      rw [length_reserveAll] at hasRest
      rw [itemsSize, itemsEntries, ← Nat.add_assoc]
      exact ih hasRest
    | procedure declared =>
      obtain ⟨_, _, hasRest⟩ := has_procedure_item has
      rw [itemsSize, itemsEntries, ← Nat.add_assoc, ← Nat.add_assoc]
      exact ih hasRest

theorem itemsRegion_append {index : Nat} (behind : start + itemsSize front ≤ index) :
    itemsRegion start (front ++ back) index = itemsRegion (start + itemsSize front) back index := by
  induction front generalizing start with
  | nil => rfl
  | cons item rest ih =>
    cases item with
    | vars count =>
      rw [itemsSize, ← Nat.add_assoc] at behind ⊢
      exact ih behind
    | procedure declared =>
      rw [itemsSize, ← Nat.add_assoc, ← Nat.add_assoc] at behind ⊢
      rw [List.cons_append, itemsRegion, if_neg (by omega)]
      exact ih behind

theorem itemsSize_append : itemsSize (front ++ back) = itemsSize front + itemsSize back := by
  induction front with
  | nil => exact (Nat.zero_add _).symm
  | cons item rest ih =>
    cases item with
    | vars count => rw [List.cons_append, itemsSize, itemsSize, ih, Nat.add_assoc]
    | procedure declared =>
      rw [List.cons_append, itemsSize, itemsSize, ih, ← Nat.add_assoc]

theorem Procedure.release_of_has {procedure : Procedure}
    (has : code.Has start (procedure.code entries start)) :
    code.instructions[start + (procedure.size - 2)]? =
      some ⟨.release, .integer (procedure.parameterCount + procedure.localCount : Nat)⟩ := by
  have fetched := has.append.2.cons.1
  simp only [List.length_append, length_storeAll, length_reserveAll, Command.length_code] at fetched
  exact fetched

end Core

namespace Tree

open Pascalet.Core

variable {items : List Item} {context final : Context} {core : List Core.Item} {code : Buffer}
  {start : Nat} {entries : List Nat}

theorem procedures_append (front back : List Item) :
    procedures (front ++ back) = procedures front ++ procedures back := by
  induction front with
  | nil => rfl
  | cons item rest ih =>
    cases item with
    | vars vars => exact ih
    | procedure declared => exact congrArg (declared :: ·) ih

theorem leading_prefix_procedures (items : List Item) : leading items <+: procedures items := by
  induction items with
  | nil => exact List.prefix_rfl
  | cons item rest ih =>
    cases item with
    | vars vars => exact List.nil_prefix
    | procedure declared => exact List.cons_prefix_cons.mpr ⟨rfl, ih⟩

theorem getElem?_procedureSymbols (first number : Nat) (declared : List Procedure) :
    (procedureSymbols first declared)[number]? =
      declared[number]?.map (·.symbol (first + number)) := by
  induction declared generalizing first number with
  | nil => simp [procedureSymbols]
  | cons procedure rest ih =>
    cases number with
    | zero => rfl
    | succ number =>
      rw [procedureSymbols, List.getElem?_cons_succ, List.getElem?_cons_succ, ih, Nat.add_assoc,
        Nat.add_comm 1]

theorem Procedure.Resolved.contains {declared : Procedure} {after headed entered : Context}
    {resolved : Core.Procedure} {rest : List Core.Item}
    (steps : declared.Resolved context resolved after headed entered)
    (known : entries.length = context.parameterCounts.length)
    (has : code.Has start (itemsCode entries start (.procedure resolved :: rest))) :
    code.Contains declared
      ((declared.symbol context.parameterCounts.length).place
        (itemsEntries entries start (.procedure resolved :: rest)))
      start (start + groupSize (.procedure resolved :: rest)) (start + resolved.size) := by
  obtain ⟨fetchedJump, hasProcedure, _⟩ := has_procedure_item has
  have size : 2 ≤ resolved.size := Nat.le_add_left 2 _
  have extent := Buffer.extent_of_has hasProcedure
  have released := Procedure.release_of_has hasProcedure
  have last : start + 1 + (resolved.size - 1) = start + resolved.size := by omega
  rw [last] at extent
  rw [steps.parameterCount, steps.localCount] at released
  obtain ⟨more, grown⟩ :=
    itemsEntries_eq_append (entries ++ [start + 1]) (start + 1 + resolved.size) rest
  refine ⟨by simp [Procedure.symbol], by simp [Procedure.symbol], ?_, fetchedJump, ?_, extent, _, ?_,
    ?_, released⟩
  · rw [Symbol.address_place rfl, itemsEntries, grown]
    simp [Procedure.symbol, ← known]
  · rw [groupSize]
    omega
  · omega
  · omega

theorem contains_items (done : resolveItems items context = .ok (core, final))
    (known : entries.length = context.parameterCounts.length)
    (has : code.Has start (itemsCode entries start core)) :
    List.Forall₂ (fun declared symbol => ∃ skip target last,
        code.Contains declared symbol skip target last)
      (procedures items)
      ((procedureSymbols context.parameterCounts.length (procedures items)).map
        (Symbol.place (itemsEntries entries start core))) := by
  induction items generalizing context core start entries with
  | nil => exact .nil
  | cons item rest ih =>
    cases item with
    | vars vars =>
      obtain ⟨after, others, entering, resolving, rfl⟩ := of_resolveItems_variables done
      have counts := Context.parameterCounts_of_declareCells entering
      have hasRest := has.append.2
      rw [length_reserveAll] at hasRest
      have later := ih resolving (by rw [known, counts]) hasRest
      rwa [counts] at later
    | procedure declared =>
      obtain ⟨resolved, after, others, first, resolving, rfl⟩ := of_resolveItems_procedure done
      obtain ⟨headed, entered, steps⟩ := Procedure.of_resolve first
      obtain ⟨_, _, hasRest⟩ := has_procedure_item has
      have counts : after.parameterCounts.length = context.parameterCounts.length + 1 := by
        rw [steps.parameterCounts, List.length_append, List.length_singleton]
      have later := ih resolving (by rw [List.length_append, known, counts]; rfl) hasRest
      rw [counts] at later
      exact .cons ⟨_, _, _, steps.contains known has⟩ later

theorem groupSize_of_resolveItems (done : resolveItems items context = .ok (core, final))
    (ends : leading items = []) : groupSize core = 0 := by
  cases items with
  | nil =>
    cases done
    rfl
  | cons item rest =>
    cases item with
    | vars vars =>
      obtain ⟨after, others, _, _, rfl⟩ := of_resolveItems_variables done
      rfl
    | procedure declared => cases ends

/-- The jumps over the procedures of a group all lead behind the last of them. -/
theorem contains_leading {position : Nat} {declared : Procedure}
    (done : resolveItems items context = .ok (core, final))
    (known : entries.length = context.parameterCounts.length)
    (has : code.Has start (itemsCode entries start core))
    (found : (leading items)[position]? = some declared) :
    ∃ skip last, code.Contains declared
        ((declared.symbol (context.parameterCounts.length + position)).place
          (itemsEntries entries start core)) skip (start + groupSize core) last ∧
      (position + 1 = (leading items).length → last + 1 = start + groupSize core) := by
  induction items generalizing context core start entries position with
  | nil => cases found
  | cons item rest ih =>
    cases item with
    | vars vars => cases found
    | procedure own =>
      obtain ⟨resolved, after, others, first, resolving, rfl⟩ := of_resolveItems_procedure done
      obtain ⟨headed, entered, steps⟩ := Procedure.of_resolve first
      cases position with
      | zero =>
        obtain rfl : own = declared := by simpa [leading] using found
        refine ⟨_, _, steps.contains known has, ?_⟩
        intro alone
        have ends : leading rest = [] := List.eq_nil_of_length_eq_zero (Nat.succ.inj alone).symm
        rw [groupSize, groupSize_of_resolveItems resolving ends]
        omega
      | succ position =>
        obtain ⟨_, _, hasRest⟩ := has_procedure_item has
        have counts : after.parameterCounts.length = context.parameterCounts.length + 1 := by
          rw [steps.parameterCounts, List.length_append, List.length_singleton]
        -- The group of the rest ends where the whole group does.
        have target : start + groupSize (.procedure resolved :: others) =
            start + 1 + resolved.size + groupSize others := by
          rw [groupSize]
          omega
        obtain ⟨skip, last, contains, ends⟩ :=
          ih resolving (by rw [List.length_append, known, counts]; rfl) hasRest found
        have number : context.parameterCounts.length + 1 + position =
            context.parameterCounts.length + (position + 1) := by
          omega
        rw [counts, number] at contains
        rw [target]
        exact ⟨skip, last, contains, fun final => ends (Nat.succ.inj final)⟩

end Tree

namespace Program

variable {source : String} {program : Program} {tree : Tree.Program} {core : Core.Program}
  {context : Context}

theorem Assembled.procedures (assembled : program.Assembled tree core context) :
    program.symbols.procedures =
      (Tree.procedureSymbols 0 tree.procedures).map (Symbol.place (core.entries 0)) := by
  have placed := @SymbolTable.procedures_place context.table (core.entries 0)
  rw [Tree.procedures_of_resolveItems (Tree.Program.of_resolve assembled.resolved).1] at placed
  rw [assembled.assembled]
  exact placed

theorem contains_procedures (compiled : compile source = .ok program)
    (spells : tree.Spells (tokenize source).tokens) :
    List.Forall₂ (fun declared symbol => ∃ skip target last,
      program.code.Contains declared symbol skip target last) tree.procedures
      program.symbols.procedures := by
  obtain ⟨core, context, assembled⟩ := exists_assembled compiled spells
  rw [assembled.procedures]
  exact Tree.contains_items (Tree.Program.of_resolve assembled.resolved).1 rfl
    assembled.executable.hasItems.2

def SkipsGroup (program : Program) (number : Nat) (group : List Tree.Procedure) (target : Nat) : Prop :=
  ∀ position declared, group[position]? = some declared → ∃ symbol skip last,
    program.symbols.procedures[number + position]? = some symbol ∧
    program.code.Contains declared symbol skip target last ∧
    (position + 1 = group.length → last + 1 = target)

theorem Assembled.skipsGroup (assembled : program.Assembled tree core context)
    {front back : List Tree.Item} (split : tree.items = front ++ back) :
    ∃ target, program.InMain target ∧
      program.SkipsGroup (Tree.procedures front).length (Tree.leading back) target := by
  have ofItems := (Tree.Program.of_resolve assembled.resolved).1
  rw [split] at ofItems
  obtain ⟨before, middle, rest, ofFront, ofRest, items⟩ := Tree.of_resolveItems_append ofItems
  have entries : core.entries 0 =
      Core.itemsEntries (Core.itemsEntries [] 1 before) (1 + Core.itemsSize before) rest := by
    rw [Core.Program.entries, items, Core.itemsEntries_append]
  refine ⟨1 + Core.itemsSize before + Core.groupSize rest, ⟨?_, ?_⟩, ?_⟩
  · have size := assembled.executable.size_eq
    have groupInside := Core.groupSize_le_itemsSize rest
    rw [Core.Program.bodyStart, items, Core.itemsSize_append] at size
    omega
  · intro entry inside
    have here := (assembled.regions.inExtent_iff entry _).mp inside
    rw [Core.Program.region, items, Core.itemsRegion_append (Nat.le_add_right _ _),
      Core.itemsRegion_groupSize] at here
    cases here
  · intro position declared found
    have number : middle.parameterCounts.length = (Tree.procedures front).length := by
      rw [Tree.length_parameterCounts_of_resolveItems ofFront]
      exact Nat.zero_add _
    have known : (Core.itemsEntries [] 1 before).length = middle.parameterCounts.length := by
      rw [Core.length_itemsEntries, (Tree.fits_of_resolveItems ofFront Context.fits_empty).2]
      simp
    have has := assembled.executable.hasItems.2
    rw [items] at has
    obtain ⟨skip, last, contains, final⟩ :=
      Tree.contains_leading ofRest known (Core.has_itemsCode_append has) found
    rw [number, ← entries] at contains
    obtain ⟨others, same⟩ := Tree.leading_prefix_procedures back
    have foundAll : (Tree.procedures back)[position]? = some declared := by
      rw [← same, List.getElem?_append_left (List.getElem?_eq_some_iff.mp found).1, found]
    refine ⟨_, skip, last, ?_, contains, final⟩
    rw [assembled.procedures, List.getElem?_map, Tree.getElem?_procedureSymbols,
      Tree.Program.procedures, split, Tree.procedures_append,
      List.getElem?_append_right (Nat.le_add_right _ _), Nat.add_sub_cancel_left, foundAll]
    simp

end Program

end Pascalet
