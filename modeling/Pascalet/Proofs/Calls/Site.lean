import Pascalet.Proofs.Calls.Region

namespace Pascalet

namespace Core

open Buffer

variable {code : Buffer} {cells start index : Nat} {parameterCounts entries : List Nat}

inductive Orderly (code : Buffer) (entries parameterCounts : List Nat) (index : Nat) :
    Instruction → Prop where
  | branch {target : Nat} (forward : index < target) :
    Orderly code entries parameterCounts index ⟨.jumpIfZero, .integer target⟩
  | call {number : Nat} {arguments : List Nat}
    (counted : parameterCounts[number]? = some arguments.length)
    (has : code.Has index ((Command.call number arguments).code entries index)) :
    Orderly code entries parameterCounts index
      ⟨.pushReturn, .integer (index + arguments.length + 2 : Nat)⟩
  | other {instruction : Instruction}
    (neither : instruction.opcode ≠ .jumpIfZero ∧ instruction.opcode ≠ .pushReturn) :
    Orderly code entries parameterCounts index instruction

theorem orderly_plain {block : List Instruction} {last : Nat} (has : code.Has start block)
    (isPlain : AllPlain block) (ends : start + block.length = last) :
    code.Every (Orderly code entries parameterCounts) start last := by
  intro index instruction behind before fetched
  obtain ⟨found, member, fetchedSame⟩ := has.get behind (by omega)
  cases fetched.symm.trans fetchedSame
  have opcode := isPlain instruction member
  apply Orderly.other
  constructor
  · intro same
    rw [same] at opcode
    cases opcode
  · intro same
    rw [same] at opcode
    cases opcode

theorem Command.orderly_call {number : Nat} {arguments : List Nat}
    (counted : parameterCounts[number]? = some arguments.length)
    (has : code.Has start ((call number arguments).code entries start)) :
    code.Every (Orderly code entries parameterCounts) start
      (start + (call number arguments).size) := by
  obtain ⟨hasFront, hasCall⟩ := has.append
  obtain ⟨fetchedPush, hasPasses⟩ := hasFront.cons
  have fetchedCall := hasCall.cons.1
  rw [List.length_cons, List.length_map, ← Nat.add_assoc] at fetchedCall
  intro index instruction behind before fetched
  rw [size] at before
  have cases : index = start ∨ index = start + arguments.length + 1 ∨
      start + 1 ≤ index ∧ index < start + 1 + arguments.length := by
    omega
  rcases cases with rfl | rfl | ⟨later, earlier⟩
  · cases fetchedPush.symm.trans fetched
    exact .call counted has
  · cases fetchedCall.symm.trans fetched
    exact .other (by simp)
  · obtain ⟨found, member, fetchedSame⟩ := hasPasses.get later (by simp; omega)
    cases fetched.symm.trans fetchedSame
    obtain ⟨address, _, rfl⟩ := List.mem_map.mp member
    exact .other (by simp)

theorem Command.orderly {command : Command} (valid : command.Valid cells parameterCounts)
    (has : code.Has start (command.code entries start)) :
    code.Every (Orderly code entries parameterCounts) start (start + command.size) := by
  induction command generalizing start with
  | skip =>
    intro index instruction behind before
    exact absurd before (Nat.not_lt.mpr behind)
  | sequence first second firstIh secondIh =>
    obtain ⟨hasFirst, hasSecond⟩ := has.append
    rw [length_code] at hasSecond
    rw [size, ← Nat.add_assoc]
    exact (firstIh valid.1 hasFirst).append (secondIh valid.2 hasSecond)
  | read address => exact orderly_plain has (by simp [Command.code, Opcode.isPlain]) rfl
  | write value =>
    have plain : AllPlain ((write value).code entries start) := by
      simpa [Command.code, Opcode.isPlain] using value.allPlain_code
    exact orderly_plain has plain (congrArg (start + ·) (length_code ..))
  | assign address value =>
    have plain : AllPlain ((assign address value).code entries start) := by
      simpa [Command.code, Opcode.isPlain] using value.allPlain_code
    exact orderly_plain has plain (congrArg (start + ·) (length_code ..))
  | choose condition body other bodyIh otherIh =>
    obtain ⟨hasFirst, hasSecond⟩ := has.append
    obtain ⟨hasCondition, hasBranch⟩ := hasFirst.append
    obtain ⟨fetchedBranch, hasBody⟩ := hasBranch.cons
    obtain ⟨fetchedJump, hasOther⟩ := hasSecond.cons
    have final : start + size (.choose condition body other) =
        start + condition.size + 1 + body.size + 1 + other.size := by
      rw [size]
      omega
    rw [guarded_end] at fetchedJump hasOther
    rw [final]
    exact (((orderly_plain hasCondition condition.allPlain_code rfl).append
      (.single fetchedBranch (.branch (by rw [Condition.size]; omega)))).append
      (bodyIh valid.2.1 hasBody)).append
      ((Every.single fetchedJump (.other (by simp))).append (otherIh valid.2.2 hasOther))
  | loop condition body ih =>
    obtain ⟨hasFirst, hasJump⟩ := has.append
    obtain ⟨hasCondition, hasBranch⟩ := hasFirst.append
    obtain ⟨fetchedBranch, hasBody⟩ := hasBranch.cons
    have fetchedJump := hasJump.cons.1
    have final : start + size (.loop condition body) =
        start + condition.size + 1 + body.size + 1 := by
      rw [size]
      omega
    rw [guarded_end] at fetchedJump
    rw [final]
    exact (((orderly_plain hasCondition condition.allPlain_code rfl).append
      (.single fetchedBranch (.branch (by rw [Condition.size]; omega)))).append
      (ih valid.2 hasBody)).append (.single fetchedJump (.other (by simp)))
  | call number arguments => exact orderly_call valid.1 has

theorem itemsCode_cases {items : List Item} {instruction : Instruction}
    (has : code.Has start (itemsCode entries start items)) (behind : start ≤ index)
    (before : index < start + itemsSize items)
    (fetched : code.instructions[index]? = some instruction) :
    (∃ entry, itemsRegion start items index = some entry) ∨
      itemsRegion start items index = none ∧ (instruction = ⟨.reserve, .integer 1⟩ ∨
        index + 1 ∈ itemsEntries entries start items ∧
          ∃ target : Nat, instruction = ⟨.jump, .integer target⟩) := by
  induction items generalizing start entries with
  | nil => exact absurd before (Nat.not_lt.mpr behind)
  | cons item rest ih =>
    cases item with
    | vars count =>
      obtain ⟨hasReserve, hasRest⟩ := has.append
      rw [length_reserveAll] at hasRest
      by_cases early : index < start + count
      · obtain ⟨found, member, fetchedSame⟩ := hasReserve.get behind (by simpa using early)
        cases fetched.symm.trans fetchedSame
        rw [itemsRegion]
        exact .inr ⟨itemsRegion_eq_none (.inl (Nat.le_of_lt early)),
          .inl (List.mem_replicate.mp member).2⟩
      · rw [itemsSize, ← Nat.add_assoc] at before
        exact ih hasRest (Nat.le_of_not_lt early) before
    | procedure declared =>
      obtain ⟨fetchedJump, _, hasRest⟩ := has_procedure_item has
      rw [itemsRegion]
      split
      · exact .inl ⟨_, rfl⟩
      next outside =>
        rcases Nat.lt_or_eq_of_le behind with later | rfl
        · rw [itemsSize] at before
          exact ih hasRest (by omega) (by omega)
        · cases fetchedJump.symm.trans fetched
          exact .inr ⟨itemsRegion_eq_none (.inl (by omega)),
            .inr ⟨mem_itemsEntries _ rest (by simp), _, rfl⟩⟩

theorem Procedure.part_cases {procedure : Procedure} {instruction : Instruction}
    (has : code.Has start (procedure.code entries start)) (behind : start ≤ index)
    (before : index < start + procedure.size)
    (fetched : code.instructions[index]? = some instruction) :
    instruction.opcode.isPlain = true ∨ instruction.opcode = .ret ∨
      start + procedure.parameterCount + procedure.localCount ≤ index ∧
        index < start + procedure.parameterCount + procedure.localCount + procedure.body.size := by
  obtain ⟨hasFront, hasEnd⟩ := has.append
  have hasEntry := hasFront.append.1
  simp only [List.length_append, length_storeAll, length_reserveAll, Command.length_code,
    ← Nat.add_assoc] at hasEnd
  obtain ⟨fetchedRelease, hasRet⟩ := hasEnd.cons
  have fetchedRet := hasRet.cons.1
  rw [size] at before
  by_cases early : index < start + procedure.parameterCount + procedure.localCount
  · left
    obtain ⟨found, member, fetchedSame⟩ := hasEntry.get behind (by simp; omega)
    cases fetched.symm.trans fetchedSame
    exact allPlain_append.mpr ⟨allPlain_storeAll _ _, allPlain_reserveAll _⟩ _ member
  by_cases inBody :
      index < start + procedure.parameterCount + procedure.localCount + procedure.body.size
  · exact .inr (.inr ⟨Nat.le_of_not_lt early, inBody⟩)
  by_cases atRelease :
      index = start + procedure.parameterCount + procedure.localCount + procedure.body.size
  · subst atRelease
    cases fetchedRelease.symm.trans fetched
    exact .inl rfl
  · obtain rfl : index = start + procedure.parameterCount + procedure.localCount +
        procedure.body.size + 1 := by
      omega
    cases fetchedRet.symm.trans fetched
    exact .inr (.inl rfl)

structure Command.Placed (core : Program) (cells : Nat) (code : Buffer) (start : Nat)
    (command : Command) : Prop where
  valid : command.Valid cells (core.procedures.map (·.parameterCount))
  has : code.Has start (command.code (core.entries 0) start)
  settled : code.Settled (start + command.size)

namespace Command.Placed

variable {core : Program} {command : Command} {instruction : Instruction}

theorem isInner (placed : command.Placed core cells code start) (behind : start ≤ index)
    (before : index < start + command.size)
    (fetched : code.instructions[index]? = some instruction) :
    Core.isInner instruction.opcode = true := by
  obtain ⟨found, member, fetchedSame⟩ := placed.has.get behind (by simpa using before)
  cases fetched.symm.trans fetchedSame
  exact command.allInner_code _ _ _ member

theorem orderly (placed : command.Placed core cells code start) (behind : start ≤ index)
    (before : index < start + command.size)
    (fetched : code.instructions[index]? = some instruction) :
    Orderly code (core.entries 0) (core.procedures.map (·.parameterCount)) index instruction :=
  Command.orderly placed.valid placed.has index instruction behind before fetched

theorem flow (placed : command.Placed core cells code start) (behind : start ≤ index)
    (before : index < start + command.size)
    (fetched : code.instructions[index]? = some instruction) :
    code.Flow (core.entries 0) (UpTo start (start + command.size)) False index instruction := by
  have known : (core.procedures.map (·.parameterCount)).length ≤ (core.entries 0).length := by
    rw [Program.entries, length_itemsEntries, List.length_map]
    exact Nat.le_add_left _ _
  exact (flows placed.valid known placed.has placed.settled).1 index instruction behind before fetched

end Command.Placed

inductive Site (core : Program) (cells : Nat) (code : Buffer) (index : Nat) : Instruction → Prop where
  | start (first : index = 0) : Site core cells code index ⟨.start, .absent⟩
  | declaration {instruction : Instruction} (behind : 0 < index) (before : index < core.bodyStart 0)
    (main : core.region index = none)
    (kind : instruction = ⟨.reserve, .integer 1⟩ ∨
      index + 1 ∈ core.entries 0 ∧ ∃ target : Nat, instruction = ⟨.jump, .integer target⟩) :
    Site core cells code index instruction
  | frame {instruction : Instruction} {entry : Nat} (here : core.region index = some entry)
    (kind : instruction.opcode.isPlain = true ∨ instruction.opcode = .ret) :
    Site core cells code index instruction
  | inner {instruction : Instruction} {entry start : Nat} {command : Command}
    (here : core.region index = some entry) (placed : command.Placed core cells code start)
    (behind : start ≤ index) (before : index < start + command.size) (inside : entry ≤ start)
    (extent : code.Extent entry (start + command.size + 1)) {count : Nat}
    (released : code.instructions[start + command.size]? = some ⟨.release, .integer count⟩) :
    Site core cells code index instruction
  | body {instruction : Instruction}
    (placed : core.body.Placed core cells code (core.bodyStart 0))
    (behind : core.bodyStart 0 ≤ index) (before : index < core.bodyStart 0 + core.body.size) :
    Site core cells code index instruction
  | stop (last : index + 1 = code.size) : Site core cells code index ⟨.stop, .absent⟩

end Core

namespace Machine.Executable

open Pascalet.Core Pascalet.Buffer

variable {core : Core.Program} {cells memorySize index : Nat} {code : Buffer}
  {instruction : Instruction}

theorem linkedEntry (executable : Executable core cells code memorySize) {entry : Nat}
    (member : entry ∈ core.entries 0) :
    ∃ called : Procedure, code.Has entry (called.code (core.entries 0) entry) ∧
      called.body.Valid cells (core.procedures.map (·.parameterCount)) := by
  obtain ⟨number, found⟩ := List.mem_iff_getElem?.mp member
  have inside : number < core.procedures.length := by
    have counted := (List.getElem?_eq_some_iff.mp found).1
    rwa [Program.entries, length_itemsEntries, List.length_nil, Nat.zero_add] at counted
  obtain ⟨same, foundSame, linked⟩ := executable.linked number _ (List.getElem?_eq_getElem inside)
  cases found.symm.trans foundSame
  exact ⟨_, linked⟩

theorem site_of_region (executable : Executable core cells code memorySize) {entry : Nat}
    (here : core.region index = some entry)
    (fetched : code.instructions[index]? = some instruction) :
    Site core cells code index instruction := by
  have member : entry ∈ core.entries 0 := mem_itemsEntries_of_itemsRegion [] here
  obtain ⟨called, has, valid⟩ := executable.linkedEntry member
  obtain ⟨_, last, extent, region⟩ := executable.procedureAt member
  have size : called.size = called.parameterCount + called.localCount + called.body.size + 2 := rfl
  -- The region reaches from the entry to the first return, which is the end of the procedure there.
  have lastEq := extent.unique (extent_of_has has)
  obtain ⟨behind, before⟩ := (region index).mp here
  rcases Procedure.part_cases has behind (by omega) fetched with plain | ret | ⟨later, earlier⟩
  · exact .frame here (.inl plain)
  · exact .frame here (.inr ret)
  · have hasBody := has.append.1.append.2
    simp only [List.length_append, length_storeAll, length_reserveAll, ← Nat.add_assoc] at hasBody
    have released := has.append.2.cons.1
    simp only [List.length_append, length_storeAll, length_reserveAll, Command.length_code,
      ← Nat.add_assoc] at released
    have placed : called.body.Placed core cells code
        (entry + called.parameterCount + called.localCount) :=
      ⟨valid, hasBody, settled_of_fetched released (by simp)⟩
    have ends : last = entry + called.parameterCount + called.localCount + called.body.size + 1 := by
      omega
    exact .inner here placed later earlier (by omega) (ends ▸ extent) released

theorem site (executable : Executable core cells code memorySize)
    (fetched : code.instructions[index]? = some instruction) :
    Site core cells code index instruction := by
  obtain ⟨fetchedStart, hasItems⟩ := executable.hasItems
  obtain ⟨hasBody, fetchedStop, _⟩ := executable.moves_body (.initial "")
  have size := executable.size_eq
  have inside : index < code.size := (Array.getElem?_eq_some_iff.mp fetched).1
  by_cases atStart : index = 0
  · subst atStart
    cases fetchedStart.symm.trans fetched
    exact .start rfl
  by_cases inItems : index < core.bodyStart 0
  · have before : index < 1 + itemsSize core.items := inItems
    rcases itemsCode_cases hasItems (by omega) before fetched with ⟨entry, here⟩ | ⟨main, kind⟩
    · exact executable.site_of_region here fetched
    · exact .declaration (by omega) inItems main kind
  by_cases inBody : index < core.bodyStart 0 + core.body.size
  · exact .body ⟨executable.valid.body, hasBody, settled_of_fetched fetchedStop (by simp)⟩
      (by omega) inBody
  · obtain rfl : index = core.bodyStart 0 + core.body.size := by omega
    cases fetchedStop.symm.trans fetched
    exact .stop size

end Machine.Executable

end Pascalet
