import Mathlib.Data.List.Forall2
import Pascalet.Proofs.Calls.Region

namespace Pascalet

namespace Tree

/-- A call as it is written, and the scope in which its names are looked up. -/
structure Call where
  scope : String
  procedure : Token
  arguments : List Token

mutual

def Statement.calls (scope : String) : Statement → List Call
  | .read _ _ | .write _ _ _ _ _ | .assign _ _ _ => []
  | .choose _ _ _ body _ => body.calls scope
  | .chooseElse _ _ _ body _ other _ => body.calls scope ++ other.calls scope
  | .loop _ _ _ body _ => body.calls scope
  | .call name arguments => [⟨scope, name.token, arguments.elim [] (·.names.found)⟩]

def Statements.calls (scope : String) : Statements → List Call
  | .empty => []
  | .last statement => statement.calls scope
  | .skip _ rest => rest.calls scope
  | .more statement _ rest => statement.calls scope ++ rest.calls scope

end

def Item.calls : Item → List Call
  | .vars _ => []
  | .procedure declared => declared.body.calls declared.name.lexeme

def Program.calls (program : Program) : List Call :=
  program.items.flatMap Item.calls ++ program.body.calls globalScope

end Tree

namespace Core

structure Call where
  procedure : Nat
  arguments : List Nat

def Command.calls : Command → List Call
  | .skip | .read _ | .write _ | .assign _ _ => []
  | .sequence first second => first.calls ++ second.calls
  | .choose _ body other => body.calls ++ other.calls
  | .loop _ body => body.calls
  | .call procedure arguments => [⟨procedure, arguments⟩]

def Item.calls : Item → List Call
  | .vars _ => []
  | .procedure declared => declared.body.calls

def Program.calls (program : Program) : List Call :=
  program.items.flatMap Item.calls ++ program.body.calls

end Core

def Instruction.beginsCall (instruction : Instruction) : Bool :=
  instruction.opcode == .pushReturn

/-- The places in the code where calls begin. -/
def Buffer.callSites (code : Buffer) : List Nat :=
  code.instructions.toList.findIdxs Instruction.beginsCall

def Buffer.HasCall (code : Buffer) (entries : List Nat) (call : Core.Call) (index : Nat) : Prop :=
  code.Has index ((Core.Command.call call.procedure call.arguments).code entries index)

def Buffer.CallsFrom (code : Buffer) (entries : List Nat) (start : Nat) (block : List Instruction)
    (calls : List Core.Call) : Prop :=
  List.Forall₂ (code.HasCall entries) calls (block.findIdxs Instruction.beginsCall start)

namespace Buffer.CallsFrom

variable {code : Buffer} {entries : List Nat} {start : Nat} {block front back : List Instruction}
  {calls more : List Core.Call}

theorem none (others : ∀ instruction ∈ block, instruction.beginsCall = false) :
    code.CallsFrom entries start block [] := by
  rw [CallsFrom, List.findIdxs_eq_nil_iff.mpr others]
  exact .nil

theorem of_allPlain (plain : AllPlain block) : code.CallsFrom entries start block [] := by
  apply none
  intro instruction found
  have isPlain := plain instruction found
  apply beq_false_of_ne
  intro same
  rw [same] at isPlain
  cases isPlain

theorem append (first : code.CallsFrom entries start front calls)
    (second : code.CallsFrom entries (start + front.length) back more) :
    code.CallsFrom entries start (front ++ back) (calls ++ more) := by
  rw [CallsFrom, List.findIdxs_append]
  exact List.rel_append first second

theorem cons {first : Instruction} (other : first.beginsCall = false)
    (rest : code.CallsFrom entries (start + 1) back calls) :
    code.CallsFrom entries start (first :: back) calls := by
  rwa [CallsFrom, List.findIdxs_cons, if_neg (by simp [other])]

theorem behind (first : code.CallsFrom entries start front [])
    (second : code.CallsFrom entries (start + front.length) back calls) :
    code.CallsFrom entries start (front ++ back) calls :=
  first.append second

theorem before (first : code.CallsFrom entries start front calls)
    (second : code.CallsFrom entries (start + front.length) back []) :
    code.CallsFrom entries start (front ++ back) calls := by
  have whole := first.append second
  rwa [List.append_nil] at whole

end Buffer.CallsFrom

namespace Core

open Buffer

variable {code : Buffer} {entries : List Nat} {start : Nat}

theorem Command.callsFrom_call {procedure : Nat} {arguments : List Nat}
    (has : code.Has start ((call procedure arguments).code entries start)) :
    code.CallsFrom entries start ((call procedure arguments).code entries start)
      [⟨procedure, arguments⟩] := by
  have passes : ∀ instruction ∈ arguments.map (fun (address : Nat) =>
      (⟨.pass, .integer address⟩ : Instruction)) ++ [⟨.call, .integer (entries.getD procedure 0)⟩],
      instruction.beginsCall = false := by
    intro instruction found
    rcases List.mem_append.mp found with passing | calling
    · obtain ⟨address, _, rfl⟩ := List.mem_map.mp passing
      rfl
    · rw [List.mem_singleton.mp calling]
      rfl
  rw [CallsFrom, Command.code, List.cons_append, List.findIdxs_cons,
    List.findIdxs_eq_nil_iff.mpr passes]
  exact .cons has .nil

theorem Command.callsFrom (command : Command) (has : code.Has start (command.code entries start)) :
    code.CallsFrom entries start (command.code entries start) command.calls := by
  induction command generalizing start with
  | skip | read address => exact .none (by simp [Command.code, Instruction.beginsCall])
  | write value =>
    exact .before (.of_allPlain value.allPlain_code) (.none (by simp [Instruction.beginsCall]))
  | assign address value =>
    exact .before (.of_allPlain value.allPlain_code) (.none (by simp [Instruction.beginsCall]))
  | sequence first second firstIh secondIh =>
    obtain ⟨hasFirst, hasSecond⟩ := has.append
    rw [length_code] at hasSecond
    refine (firstIh hasFirst).append ?_
    rw [length_code]
    exact secondIh hasSecond
  | choose condition body other bodyIh otherIh =>
    obtain ⟨hasFront, hasOther⟩ := has.append
    obtain ⟨hasCondition, hasBody⟩ := hasFront.append
    rw [guarded_end] at hasOther
    refine .append (.behind (.of_allPlain condition.allPlain_code)
      (.cons rfl (bodyIh hasBody.cons.2))) (.cons rfl ?_)
    rw [guarded_end]
    exact otherIh hasOther.cons.2
  | loop condition body ih =>
    obtain ⟨hasFront, _⟩ := has.append
    obtain ⟨_, hasBody⟩ := hasFront.append
    exact .before (.behind (.of_allPlain condition.allPlain_code) (.cons rfl (ih hasBody.cons.2)))
      (.none (by simp [Instruction.beginsCall]))
  | call procedure arguments => exact callsFrom_call has

theorem Procedure.callsFrom (procedure : Procedure)
    (has : code.Has start (procedure.code entries start)) :
    code.CallsFrom entries start (procedure.code entries start) procedure.body.calls := by
  have front : AllPlain (storeAll procedure.firstCell procedure.parameterCount ++
      reserveAll procedure.localCount) :=
    allPlain_append.mpr ⟨allPlain_storeAll _ _, allPlain_reserveAll _⟩
  have length : start + (storeAll procedure.firstCell procedure.parameterCount ++
      reserveAll procedure.localCount).length =
        start + procedure.parameterCount + procedure.localCount := by
    simp [Nat.add_assoc]
  obtain ⟨_, hasBody⟩ := has.append.1.append
  rw [length] at hasBody
  refine .before (.behind (.of_allPlain front) ?_) (.none (by simp [Instruction.beginsCall]))
  rw [length]
  exact procedure.body.callsFrom hasBody

/-- The calls of declarations. Their procedures are those that are declared before or in them. -/
theorem callsFrom_items {items : List Item} {cells : Nat} {parameterCounts : List Nat}
    (valid : ItemsValid cells parameterCounts items)
    (known : entries.length = parameterCounts.length)
    (has : code.Has start (itemsCode entries start items)) :
    code.CallsFrom (itemsEntries entries start items) start (itemsCode entries start items)
      (items.flatMap Item.calls) := by
  induction items generalizing parameterCounts entries start with
  | nil => exact .none (by simp [itemsCode])
  | cons item rest ih =>
    cases item with
    | vars count =>
      have hasRest := has.append.2
      refine .behind (.of_allPlain (allPlain_reserveAll count)) ?_
      rw [length_reserveAll] at hasRest ⊢
      exact ih valid known hasRest
    | procedure declared =>
      obtain ⟨_, hasProcedure, hasRest⟩ := has_procedure_item has
      have knownMore : (entries ++ [start + 1]).length =
          (parameterCounts ++ [declared.parameterCount]).length := by
        simp [known]
      have later := ih valid.2 knownMore hasRest
      obtain ⟨others, extended⟩ := itemsEntries_eq_append (entries ++ [start + 1])
        (start + 1 + declared.size) rest
      -- Procedures that are declared later are not called, so their entries make no difference.
      have same : declared.code (itemsEntries entries start (.procedure declared :: rest)) (start + 1) =
          declared.code (entries ++ [start + 1]) (start + 1) := by
        rw [itemsEntries, extended, Procedure.code, Procedure.code,
          Command.code_append valid.1.body (Nat.le_of_eq knownMore.symm)]
      have own := declared.callsFrom (same ▸ hasProcedure)
      rw [same] at own
      refine .append (.cons rfl own) ?_
      rw [List.length_cons, Procedure.length_code, Nat.add_comm declared.size, ← Nat.add_assoc]
      exact later

end Core

theorem Machine.Executable.calls {core : Core.Program} {cells memorySize : Nat} {code : Buffer}
    (executable : Executable core cells code memorySize) :
    List.Forall₂ (code.HasCall (core.entries 0)) core.calls code.callSites := by
  obtain ⟨hasFront, _⟩ := executable.has.append
  obtain ⟨hasStart, hasBody⟩ := hasFront.append
  have items := Core.callsFrom_items executable.valid.items rfl hasStart.cons.2
  have place : 0 + (⟨.start, .absent⟩ :: Core.itemsCode [] (0 + 1) core.items).length =
      core.bodyStart 0 := by
    rw [List.length_cons, Core.length_itemsCode, Core.Program.bodyStart]
    omega
  have whole : code.CallsFrom (core.entries 0) 0 (core.code 0) core.calls := by
    refine .before (.append (.cons rfl items) ?_) (.none (by simp [Instruction.beginsCall]))
    rw [place] at hasBody ⊢
    exact core.body.callsFrom hasBody
  rwa [Buffer.CallsFrom, ← executable.instructions] at whole

end Pascalet
