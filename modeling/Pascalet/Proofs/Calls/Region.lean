import Pascalet.Proofs.Calls.Flow
import Pascalet.Proofs.Execution.Correctness
import Pascalet.Proofs.Scoping.Privacy

namespace Pascalet

namespace Buffer

variable {code : Buffer} {start : Nat}

theorem Has.split {block : List Instruction} (has : code.Has start block) (some : 0 < block.length) :
    ∃ front back, code.instructions.toList = front ++ block ++ back ∧ front.length = start := by
  have inside := has.end_le some
  have found : block <+: code.instructions.toList.drop start := by
    rw [List.prefix_iff_getElem?]
    intro index below
    rw [List.getElem?_drop, Array.getElem?_toList]
    exact has index _ (List.getElem?_eq_getElem below)
  obtain ⟨back, behind⟩ := found
  refine ⟨code.instructions.toList.take start, back, ?_, ?_⟩
  · rw [List.append_assoc, behind, List.take_append_drop]
  · rw [List.length_take, Array.length_toList]
    exact Nat.min_eq_left (by simp only [size] at inside; omega)

theorem extent_of_has {procedure : Core.Procedure} {entries : List Nat}
    (has : code.Has start (procedure.code entries start)) :
    code.Extent start (start + (procedure.size - 1)) := by
  have nonempty : 0 < (procedure.code entries start).length := by
    rw [Core.Procedure.length_code]
    exact Nat.succ_pos _
  obtain ⟨front, back, split, rfl⟩ := has.split nonempty
  exact extent_of_code split

theorem Extent.unique {entry last other : Nat} (extent : code.Extent entry last)
    (same : code.Extent entry other) : last = other := by
  rcases Nat.lt_trichotomy last other with before | equal | behind
  · exact absurd rfl (same.inside last extent.ordered before _ extent.returns)
  · exact equal
  · exact absurd rfl (extent.inside other same.ordered behind _ same.returns)

end Buffer

namespace Core

open Buffer

/-- The procedure whose code holds an index, by its entry. -/
def itemsRegion (start : Nat) : List Item → (index : Nat) → Option Nat
  | [], _ => none
  | .vars count :: rest, index => itemsRegion (start + count) rest index
  | .procedure declared :: rest, index =>
    if start < index ∧ index ≤ start + declared.size then some (start + 1)
    else itemsRegion (start + 1 + declared.size) rest index

variable {items : List Item} {start index entry : Nat}

theorem bounds_of_itemsRegion (here : itemsRegion start items index = some entry) :
    start < entry ∧ entry ≤ index ∧ index < start + itemsSize items := by
  induction items generalizing start with
  | nil => cases here
  | cons item rest ih =>
    cases item with
    | vars count =>
      have later := ih here
      rw [itemsSize]
      omega
    | procedure declared =>
      rw [itemsRegion] at here
      rw [itemsSize]
      split at here
      next inside =>
        cases here
        omega
      next =>
        have later := ih here
        omega

theorem itemsRegion_eq_none (outside : index ≤ start ∨ start + itemsSize items ≤ index) :
    itemsRegion start items index = none := by
  cases here : itemsRegion start items index with
  | none => rfl
  | some entry =>
    have bounds := bounds_of_itemsRegion here
    omega

theorem itemsRegion_groupSize (start : Nat) (items : List Item) :
    itemsRegion start items (start + groupSize items) = none := by
  induction items generalizing start with
  | nil => rfl
  | cons item rest ih =>
    cases item with
    | vars count => exact itemsRegion_eq_none (.inl (Nat.le_refl _))
    | procedure declared =>
      rw [itemsRegion, groupSize, if_neg (by omega), ← Nat.add_assoc, ← Nat.add_assoc]
      exact ih _

theorem mem_itemsEntries {entries : List Nat} (start : Nat) (items : List Item)
    (known : entry ∈ entries) : entry ∈ itemsEntries entries start items := by
  obtain ⟨others, same⟩ := itemsEntries_eq_append entries start items
  rw [same]
  exact List.mem_append_left others known

theorem mem_itemsEntries_of_itemsRegion (entries : List Nat)
    (here : itemsRegion start items index = some entry) :
    entry ∈ itemsEntries entries start items := by
  induction items generalizing start entries with
  | nil => cases here
  | cons item rest ih =>
    cases item with
    | vars count => exact ih entries here
    | procedure declared =>
      rw [itemsRegion] at here
      split at here
      · cases here
        exact mem_itemsEntries _ rest (by simp)
      · exact ih _ here

variable {code : Buffer} {cells : Nat} {parameterCounts entries : List Nat}

/-- A procedure is entered at its beginning, and control stays in it until it returns. -/
theorem Procedure.flows {procedure : Procedure} (valid : procedure.Valid cells parameterCounts)
    (known : parameterCounts.length + 1 ≤ entries.length)
    (has : code.Has start (procedure.code entries start)) :
    code.Flows entries (UpTo start (start + (procedure.size - 1))) True start
      (start + procedure.size) ∧ code.Settled start := by
  obtain ⟨hasFront, hasEnd⟩ := has.append
  obtain ⟨hasEntry, hasBody⟩ := hasFront.append
  simp only [List.length_append, length_storeAll, length_reserveAll, Command.length_code,
    ← Nat.add_assoc] at hasBody hasEnd
  obtain ⟨fetchedRelease, hasRet⟩ := hasEnd.cons
  have fetchedRet := hasRet.cons.1
  have size : start + procedure.size = start + procedure.parameterCount + procedure.localCount +
      procedure.body.size + 1 + 1 := by
    rw [Procedure.size]
    omega
  have last : start + (procedure.size - 1) = start + procedure.parameterCount +
      procedure.localCount + procedure.body.size + 1 := by
    omega
  rw [size, last]
  obtain ⟨bodyFlows, settledBody⟩ := Command.flows valid.body (by simpa using known) hasBody
    (settled_of_fetched fetchedRelease (by simp))
  obtain ⟨entryFlows, settledStart⟩ := @flows_plain _ entries False _ _ _ hasEntry
    (allPlain_append.mpr ⟨allPlain_storeAll _ _, allPlain_reserveAll _⟩) (by simp [Nat.add_assoc])
    settledBody
  refine ⟨?_, settledStart⟩
  exact (((entryFlows.widen (Nat.le_refl _) (by omega)).append
    (bodyFlows.widen (by omega) (by omega))).append
    (.single fetchedRelease (.plain rfl ⟨by omega, Nat.le_refl _⟩
      (settled_of_fetched fetchedRet (by simp))))).append (.single fetchedRet (.ret trivial))

theorem has_procedure_item {declared : Procedure} {rest : List Item}
    (has : code.Has start (itemsCode entries start (.procedure declared :: rest))) :
    code.instructions[start]? =
        some ⟨.jump, .integer (start + groupSize (.procedure declared :: rest) : Nat)⟩ ∧
      code.Has (start + 1) (declared.code (entries ++ [start + 1]) (start + 1)) ∧
      code.Has (start + 1 + declared.size)
        (itemsCode (entries ++ [start + 1]) (start + 1 + declared.size) rest) := by
  obtain ⟨hasFirst, hasRest⟩ := has.append
  rw [List.length_cons, Procedure.length_code, Nat.add_comm declared.size, ← Nat.add_assoc]
    at hasRest
  exact ⟨hasFirst.cons.1, hasFirst.cons.2, hasRest⟩

/-- Control in the code of declarations: it goes around the procedures, and stays inside of each. -/
structure ItemsFlow (code : Buffer) (entries : List Nat) (start last : Nat) (items : List Item) :
    Prop where
  flow : ∀ index instruction, start ≤ index → index < last →
    code.instructions[index]? = some instruction →
    code.Flow entries
      (fun other => UpTo start last other ∧
        itemsRegion start items other = itemsRegion start items index)
      (itemsRegion start items index ≠ none) index instruction
  settled : code.Settled start
  settledBehind : code.Settled (start + groupSize items)

theorem ItemsFlow.vars {count last : Nat} {rest : List Item}
    (later : ItemsFlow code entries (start + count) last rest) (inside : start + count ≤ last)
    (has : code.Has start (reserveAll count)) :
    ItemsFlow code entries start last (.vars count :: rest) := by
  obtain ⟨reserveFlows, settledStart⟩ := @flows_plain _ entries False _ _ _ has
    (allPlain_reserveAll count) (by rw [length_reserveAll]) later.settled
  refine ⟨?_, settledStart, settledStart⟩
  intro index instruction behind before fetched
  by_cases early : index < start + count
  · have flow := reserveFlows index instruction behind early fetched
    apply flow.mono (fun _ member => member) False.elim
    rintro other ⟨above, below⟩
    refine ⟨⟨above, by omega⟩, ?_⟩
    rw [itemsRegion, itemsRegion, itemsRegion_eq_none (.inl below),
      itemsRegion_eq_none (.inl (Nat.le_of_lt early))]
  · have flow := later.flow index instruction (by omega) before fetched
    apply flow.mono (fun _ member => member) id
    rintro other ⟨⟨above, below⟩, same⟩
    exact ⟨⟨by omega, below⟩, same⟩

theorem ItemsFlow.procedure {last : Nat} {declared : Procedure} {rest : List Item}
    (later : ItemsFlow code entries (start + 1 + declared.size) last rest)
    (inside : start + 1 + declared.size + groupSize rest ≤ last)
    (fetchedJump : code.instructions[start]? =
      some ⟨.jump, .integer (start + groupSize (.procedure declared :: rest) : Nat)⟩)
    (flows : code.Flows entries (UpTo (start + 1) (start + 1 + (declared.size - 1))) True (start + 1)
      (start + 1 + declared.size)) :
    ItemsFlow code entries start last (.procedure declared :: rest) := by
  have size : 0 < declared.size := Nat.succ_pos _
  have group : start + groupSize (.procedure declared :: rest) =
      start + 1 + declared.size + groupSize rest := by
    rw [groupSize]
    omega
  have settledBehind : code.Settled (start + groupSize (.procedure declared :: rest)) := by
    rw [group]
    exact later.settledBehind
  refine ⟨?_, settled_of_fetched fetchedJump (by simp), settledBehind⟩
  intro index instruction behind before fetched
  -- The index is that of the jump, one of the procedure, or one behind it.
  rcases Nat.lt_or_eq_of_le behind with inner | rfl
  · by_cases own : index ≤ start + declared.size
    · have flow := flows index instruction inner (by omega) fetched
      have here : itemsRegion start (.procedure declared :: rest) index = some (start + 1) := by
        rw [itemsRegion, if_pos ⟨inner, own⟩]
      rw [here]
      apply flow.mono (fun _ member => member) (by simp)
      rintro other ⟨above, below⟩
      refine ⟨⟨by omega, by omega⟩, ?_⟩
      rw [itemsRegion, if_pos ⟨by omega, by omega⟩]
    · have flow := later.flow index instruction (by omega) before fetched
      rw [itemsRegion, if_neg (by omega)]
      apply flow.mono (fun _ member => member) id
      rintro other ⟨⟨above, below⟩, same⟩
      refine ⟨⟨by omega, below⟩, ?_⟩
      rw [itemsRegion, if_neg (by omega)]
      exact same
  · cases fetchedJump.symm.trans fetched
    refine .jump ⟨⟨by omega, by omega⟩, ?_⟩ settledBehind
    rw [itemsRegion_groupSize, itemsRegion_eq_none (.inl (Nat.le_refl _))]

theorem itemsFlow {last : Nat} (ends : start + itemsSize items = last)
    (valid : ItemsValid cells parameterCounts items)
    (known : entries.length = parameterCounts.length)
    (has : code.Has start (itemsCode entries start items)) (settled : code.Settled last) :
    ItemsFlow code (itemsEntries entries start items) start last items := by
  induction items generalizing start entries parameterCounts with
  | nil =>
    obtain rfl : start = last := ends
    refine ⟨?_, settled, settled⟩
    intro index instruction behind before
    exact absurd before (Nat.not_lt.mpr behind)
  | cons item rest ih =>
    cases item with
    | vars count =>
      obtain ⟨hasReserve, hasRest⟩ := has.append
      rw [length_reserveAll] at hasRest
      rw [itemsSize, ← Nat.add_assoc] at ends
      exact (ih ends valid known hasRest).vars (by omega) hasReserve
    | procedure declared =>
      obtain ⟨fetchedJump, hasProcedure, hasRest⟩ := has_procedure_item has
      have endsRest : start + 1 + declared.size + itemsSize rest = last := by
        rw [itemsSize] at ends
        omega
      have groupInside := groupSize_le_itemsSize rest
      have later := ih endsRest valid.2 (by simp [known]) hasRest
      obtain ⟨flows, _⟩ := Procedure.flows valid.1 (by simp [known]) hasProcedure
      refine later.procedure (by omega) fetchedJump ?_
      intro index instruction behind before fetched
      exact (flows index instruction behind before fetched).mono
        (fun _ member => mem_itemsEntries _ _ member) id (fun _ allowed => allowed)

structure ProcedureAt (code : Buffer) (region : Nat → Option Nat) (entry : Nat) : Prop where
  settled : code.Settled entry
  extent : ∃ last, code.Extent entry last ∧ ∀ index, region index = some entry ↔ UpTo entry last index

theorem procedureAt_items (valid : ItemsValid cells parameterCounts items)
    (known : entries.length = parameterCounts.length)
    (has : code.Has start (itemsCode entries start items))
    (member : entry ∈ itemsEntries entries start items) :
    entry ∈ entries ∨ ProcedureAt code (itemsRegion start items) entry := by
  induction items generalizing start entries parameterCounts with
  | nil => exact .inl member
  | cons item rest ih =>
    cases item with
    | vars count =>
      have hasRest := has.append.2
      rw [length_reserveAll] at hasRest
      exact ih valid known hasRest member
    | procedure declared =>
      obtain ⟨_, hasProcedure, hasRest⟩ := has_procedure_item has
      have size : 0 < declared.size := Nat.succ_pos _
      rcases ih valid.2 (by simp [known]) hasRest member with old | later
      · rcases List.mem_append.mp old with older | new
        · exact .inl older
        · obtain rfl := List.mem_singleton.mp new
          right
          refine ⟨(Procedure.flows valid.1 (by simp [known]) hasProcedure).2, _,
            extent_of_has hasProcedure, ?_⟩
          intro index
          rw [itemsRegion, UpTo]
          split
          next inside => exact iff_of_true rfl ⟨by omega, by omega⟩
          next outside =>
            refine iff_of_false (fun here => ?_) (by omega)
            have bounds := bounds_of_itemsRegion here
            omega
      · right
        obtain ⟨settled, last, extent, region⟩ := later
        refine ⟨settled, last, extent, ?_⟩
        intro index
        rw [← region, itemsRegion]
        split
        next inside =>
          have bounds := bounds_of_itemsRegion ((region entry).mpr ⟨Nat.le_refl _, extent.ordered⟩)
          rw [itemsRegion_eq_none (.inl (by omega))]
          refine iff_of_false (fun same => ?_) (by simp)
          have first := Option.some.inj same
          omega
        next => rfl

def Program.region (program : Program) (index : Nat) : Option Nat :=
  itemsRegion 1 program.items index

end Core

namespace Machine.Executable

open Pascalet.Core Pascalet.Buffer

variable {core : Core.Program} {cells memorySize index : Nat} {code : Buffer}

theorem hasItems (executable : Executable core cells code memorySize) :
    code.instructions[0]? = some ⟨.start, .absent⟩ ∧ code.Has 1 (itemsCode [] 1 core.items) :=
  executable.has.append.1.append.1.cons

/-- Control begins in the main region and stays in its region. It never comes back to the beginning. -/
theorem flow (executable : Executable core cells code memorySize) :
    code.Settled 0 ∧ ∀ (index : Nat) (instruction : Instruction),
      code.instructions[index]? = some instruction →
      code.Flow (core.entries 0)
        (fun other => 0 < other ∧ other < code.size ∧ core.region other = core.region index)
        (core.region index ≠ none) index instruction := by
  obtain ⟨fetchedStart, hasItems⟩ := executable.hasItems
  obtain ⟨hasBody, fetchedStop, _⟩ := executable.moves_body (.initial "")
  have size := executable.size_eq
  have known : (core.procedures.map (·.parameterCount)).length ≤ (core.entries 0).length := by
    rw [Program.entries, length_itemsEntries, List.length_map]
    exact Nat.le_add_left _ _
  have settledStop := settled_of_fetched fetchedStop (by simp)
  obtain ⟨bodyFlows, settledBody⟩ := Command.flows executable.valid.body known hasBody settledStop
  have bodyStart : core.bodyStart 0 = 1 + itemsSize core.items := by rw [Program.bodyStart]
  have items := itemsFlow bodyStart.symm executable.valid.items rfl hasItems settledBody
  refine ⟨settled_of_fetched fetchedStart (by simp), ?_⟩
  intro index instruction fetched
  have inside : index < code.size := (Array.getElem?_eq_some_iff.mp fetched).1
  have main : ∀ other, core.bodyStart 0 ≤ other → core.region other = none :=
    fun other behind => itemsRegion_eq_none (.inr (bodyStart ▸ behind))
  by_cases atStart : index = 0
  · subst atStart
    cases fetchedStart.symm.trans fetched
    refine .plain rfl ⟨Nat.zero_lt_one, by omega, ?_⟩ items.settled
    rw [Program.region, Program.region, itemsRegion_eq_none (.inl (Nat.le_refl 1)),
      itemsRegion_eq_none (.inl (Nat.zero_le 1))]
  by_cases inItems : index < core.bodyStart 0
  · have flow := items.flow index instruction (by omega) inItems fetched
    apply flow.mono (fun _ member => member) id
    rintro other ⟨⟨above, below⟩, same⟩
    exact ⟨by omega, by omega, same⟩
  by_cases inBody : index < core.bodyStart 0 + core.body.size
  · have flow := bodyFlows index instruction (by omega) inBody fetched
    apply flow.mono (fun _ member => member) False.elim
    rintro other ⟨above, below⟩
    exact ⟨by omega, by omega, by rw [main other above, main index (by omega)]⟩
  · obtain rfl : index = core.bodyStart 0 + core.body.size := by omega
    cases fetchedStop.symm.trans fetched
    exact .stop

theorem procedureAt (executable : Executable core cells code memorySize) {entry : Nat}
    (member : entry ∈ core.entries 0) : ProcedureAt code core.region entry := by
  rcases procedureAt_items executable.valid.items rfl executable.hasItems.2 member with none | placed
  · cases none
  · exact placed

end Machine.Executable

namespace Tree

def Numbered (context : Context) : Prop :=
  ∀ number < context.parameterCounts.length, ∃ symbol ∈ context.table.symbols,
    symbol.category = .procedure ∧ symbol.address = number

theorem numbered_of_resolveItems {items : List Item} {context final : Context}
    {core : List Core.Item} (done : resolveItems items context = .ok (core, final))
    (numbered : Numbered context) : Numbered final := by
  induction items generalizing context core with
  | nil =>
    cases done
    exact numbered
  | cons item rest ih =>
    cases item with
    | vars vars =>
      obtain ⟨after, others, entering, resolving, _⟩ := of_resolveItems_variables done
      apply ih resolving
      intro number inside
      rw [Context.parameterCounts_of_declareCells entering] at inside
      obtain ⟨symbol, found, facts⟩ := numbered number inside
      rw [Context.table_of_declareCells entering]
      exact ⟨symbol, List.mem_append_left _ found, facts⟩
    | procedure declared =>
      obtain ⟨resolved, after, others, first, resolving, _⟩ := of_resolveItems_procedure done
      obtain ⟨headed, entered, steps⟩ := Procedure.of_resolve first
      apply ih resolving
      intro number inside
      rw [steps.parameterCounts, List.length_append, List.length_singleton] at inside
      rw [steps.table.2]
      rcases Nat.lt_or_eq_of_le (Nat.le_of_lt_succ inside) with old | rfl
      · obtain ⟨symbol, found, facts⟩ := numbered number old
        exact ⟨symbol, List.mem_append_left _ found, facts⟩
      · exact ⟨declared.symbol context.parameterCounts.length, by simp [Procedure.symbols], rfl, rfl⟩

end Tree

namespace Program

def IsEntry (program : Program) (entry : Nat) : Prop :=
  ∃ symbol ∈ program.symbols.symbols, symbol.category = .procedure ∧ symbol.address = entry

/-- The index lies in the procedure with this entry, between the entry and its return. -/
def InExtent (program : Program) (entry index : Nat) : Prop :=
  program.IsEntry entry ∧ ∃ last, program.code.Extent entry last ∧ entry ≤ index ∧ index ≤ last

def InMain (program : Program) (index : Nat) : Prop :=
  index < program.code.size ∧ ∀ entry, ¬ program.InExtent entry index

theorem isEntry_iff {tree : Tree.Program} {core : Core.Program} {context : Context}
    (resolved : tree.resolve = .ok (core, context)) {name : String} {entry : Nat} :
    (core.assemble name context).IsEntry entry ↔ entry ∈ core.entries 0 := by
  obtain ⟨ofItems, _⟩ := Tree.Program.of_resolve resolved
  obtain ⟨fits, counts⟩ := Tree.fits_of_resolveItems ofItems Context.fits_empty
  have numbered := Tree.numbered_of_resolveItems ofItems (by simp [Tree.Numbered])
  have length : (core.entries 0).length = context.parameterCounts.length := by
    rw [Core.Program.entries, Core.length_itemsEntries, counts]
    simp
  -- The address of a symbol is the entry with its number.
  have placed {symbol : Symbol} {number : Nat} (category : symbol.category = .procedure)
      (address : symbol.address = number) (inside : number < (core.entries 0).length) :
      (symbol.place (core.entries 0)).address = (core.entries 0).get ⟨number, inside⟩ := by
    rw [Symbol.address_place (by simp [Symbol.isProcedure, category]), address, Int.toNat_natCast,
      List.getD_eq_getElem?_getD, List.getElem?_eq_getElem inside]
    rfl
  constructor
  · rintro ⟨_, member, category, address⟩
    obtain ⟨symbol, found, rfl⟩ := List.mem_map.mp member
    rw [Symbol.category_place] at category
    obtain ⟨number, isNumber, counted, _⟩ := fits symbol found
    have counts := counted (by simp [Symbol.isProcedure, category])
    have inside : number < (core.entries 0).length := by
      rw [length]
      exact (List.getElem?_eq_some_iff.mp counts).1
    rw [placed category isNumber inside] at address
    rw [← Int.ofNat_inj.mp address]
    exact List.get_mem _ _
  · intro member
    obtain ⟨⟨number, inside⟩, rfl⟩ := List.get_of_mem member
    obtain ⟨symbol, found, category, address⟩ := numbered number (length ▸ inside)
    exact ⟨symbol.place (core.entries 0), List.mem_map_of_mem found, by simpa using category,
      placed category address inside⟩

/-- The regions of a program, each named by the entry of its procedure. -/
structure Regions (program : Program) (entries : List Nat) (region : Nat → Option Nat) : Prop where
  nonempty : 0 < program.code.size
  settled : program.code.Settled 0
  main : region 0 = none
  flow : ∀ (index : Nat) (instruction : Instruction),
    program.code.instructions[index]? = some instruction →
    program.code.Flow entries
      (fun other => other < program.code.size ∧ region other = region index) (region index ≠ none)
      index instruction
  entered : ∀ entry ∈ entries, entry < program.code.size ∧ program.code.Settled entry ∧
    region entry = some entry
  inExtent_iff : ∀ entry index, program.InExtent entry index ↔ region index = some entry

structure Assembled (program : Program) (tree : Tree.Program) (core : Core.Program)
    (context : Context) : Prop where
  resolved : tree.resolve = .ok (core, context)
  assembled : program = core.assemble tree.name.lexeme context
  executable : Machine.Executable core context.cells program.code context.cells

theorem exists_assembled {source : String} {program : Program} {tree : Tree.Program}
    (compiled : compile source = .ok program) (spells : tree.Spells (tokenize source).tokens) :
    ∃ core context, program.Assembled tree core context := by
  obtain ⟨core, context, resolved, cells, executable⟩ := executable_of_compile compiled spells
  obtain ⟨_, _, sameResolved, assembled⟩ := exists_core_of_compile compiled spells
  cases resolved.symm.trans sameResolved
  exact ⟨core, context, resolved, assembled, executable context.cells (Nat.le_refl _)⟩

theorem Assembled.isEntry_iff {program : Program} {tree : Tree.Program} {core : Core.Program}
    {context : Context} (assembled : program.Assembled tree core context) {entry : Nat} :
    program.IsEntry entry ↔ entry ∈ core.entries 0 := by
  rw [assembled.assembled]
  exact Program.isEntry_iff assembled.resolved

theorem Assembled.regions {program : Program} {tree : Tree.Program} {core : Core.Program}
    {context : Context} (assembled : program.Assembled tree core context) :
    program.Regions (core.entries 0) core.region := by
  have executable := assembled.executable
  obtain ⟨settled, flow⟩ := executable.flow
  have size := executable.size_eq
  refine ⟨by omega, settled, Core.itemsRegion_eq_none (.inl (Nat.zero_le 1)), ?_, ?_, ?_⟩
  · intro index instruction fetched
    exact (flow index instruction fetched).mono (fun _ known => known) id fun _ place => place.2
  · intro entry member
    obtain ⟨settledEntry, last, extent, region⟩ := executable.procedureAt member
    have inside := (Array.getElem?_eq_some_iff.mp extent.returns).1
    exact ⟨Nat.lt_of_le_of_lt extent.ordered inside, settledEntry,
      (region entry).mpr ⟨Nat.le_refl _, extent.ordered⟩⟩
  · intro entry index
    constructor
    · rintro ⟨isEntry, last, extent, inside⟩
      obtain ⟨_, sameLast, sameExtent, region⟩ :=
        executable.procedureAt (assembled.isEntry_iff.mp isEntry)
      rw [extent.unique sameExtent] at inside
      exact (region index).mpr inside
    · intro here
      have member : entry ∈ core.entries 0 := Core.mem_itemsEntries_of_itemsRegion [] here
      obtain ⟨_, last, extent, region⟩ := executable.procedureAt member
      exact ⟨assembled.isEntry_iff.mpr member, last, extent, (region index).mp here⟩

theorem exists_regions {source : String} {program : Program}
    (compiled : compile source = .ok program) : ∃ entries region, program.Regions entries region := by
  obtain ⟨tree, spells⟩ := (exists_spells_of_compile compiled).2
  obtain ⟨core, context, assembled⟩ := exists_assembled compiled spells
  exact ⟨_, _, assembled.regions⟩

end Program

end Pascalet
