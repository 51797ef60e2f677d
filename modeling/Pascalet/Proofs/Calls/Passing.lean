import Mathlib.Data.List.Nodup
import Pascalet.Proofs.Core.Basic
import Pascalet.Proofs.Execution.Block
import Pascalet.Proofs.Machine.Straight

namespace Pascalet

namespace Memory

def setAll (memory : Memory) (cells : List (Nat × Binary64)) : Memory :=
  cells.foldl (fun written (address, value) => written.set address value) memory

variable {cells : List (Nat × Binary64)} {memory : Memory} {address : Nat} {value : Binary64}

@[simp]
theorem size_setAll (memory : Memory) (cells : List (Nat × Binary64)) :
    (memory.setAll cells).size = memory.size := by
  induction cells generalizing memory with
  | nil => rfl
  | cons cell rest ih => exact (ih _).trans (size_set _ _ _)

theorem get_setAll_of_not_mem (other : address ∉ cells.map (·.1)) :
    (memory.setAll cells).get address = memory.get address := by
  induction cells generalizing memory with
  | nil => rfl
  | cons cell rest ih =>
    rw [List.map_cons, List.mem_cons, not_or] at other
    exact (ih other.2).trans (get_set_of_ne (Ne.symm other.1) _)

theorem get_setAll_of_mem (distinct : (cells.map (·.1)).Nodup)
    (inside : ∀ cell ∈ cells.map (·.1), cell < memory.size) (member : (address, value) ∈ cells) :
    (memory.setAll cells).get address = value := by
  induction cells generalizing memory with
  | nil => cases member
  | cons cell rest ih =>
    rw [List.map_cons, List.nodup_cons] at distinct
    rw [List.map_cons, List.forall_mem_cons] at inside
    rcases List.mem_cons.mp member with rfl | later
    · exact (get_setAll_of_not_mem distinct.1).trans (get_set_self inside.1 _)
    · exact ih distinct.2 (by simpa using inside.2) later

end Memory

namespace Machine

open Pascalet.Core (storeAll)

variable {machine : Machine} {rest : List Binary64}

theorem straight_passes (arguments : List Nat)
    (has : machine.code.Has machine.pc
      (arguments.map fun (address : Nat) => ⟨.pass, .integer address⟩))
    (inside : ∀ address ∈ arguments, address < machine.memory.size) :
    Straight arguments.length machine (machine.behind arguments.length
      ((arguments.map machine.memory.get).reverse ++ machine.stack)) := by
  induction arguments generalizing machine with
  | nil => exact .none
  | cons address arguments ih =>
    obtain ⟨here, hasRest⟩ := has.cons
    rw [List.forall_mem_cons] at inside
    have later := @ih (machine.behind 1 (machine.memory.get address :: machine.stack)) hasRest inside.2
    rw [behind_behind, Nat.add_comm 1] at later
    rw [List.map_cons, List.reverse_cons, List.append_assoc]
    exact .more (step_load (.inr rfl) here inside.1) rfl later

theorem straight_stores (cells : List (Nat × Binary64))
    (has : machine.code.Has machine.pc
      (cells.map fun cell => ⟨.store, .integer (cell.1 : Nat)⟩))
    (top : machine.stack = cells.map (·.2) ++ rest)
    (inside : ∀ address ∈ cells.map (·.1), address < machine.memory.size) :
    Straight cells.length machine
      { machine.behind cells.length rest with memory := machine.memory.setAll cells } := by
  induction cells generalizing machine with
  | nil =>
    obtain rfl : machine.stack = rest := top
    exact .none
  | cons cell cells ih =>
    obtain ⟨here, hasRest⟩ := has.cons
    rw [List.map_cons, List.forall_mem_cons] at inside
    rw [List.map_cons, List.cons_append] at top
    have later := @ih
      { machine.behind 1 (cells.map (·.2) ++ rest) with memory := machine.memory.set cell.1 cell.2 }
      hasRest rfl (by simpa using inside.2)
    have joined : machine.pc + 1 + cells.length = machine.pc + (cells.length + 1) ∧
        machine.steps + 1 + cells.length = machine.steps + (cells.length + 1) := by omega
    simp only [behind, joined] at later
    exact .more (step_store here top inside.1) rfl later

def lastFirst (firstCell : Nat) (values : List Binary64) : List (Nat × Binary64) :=
  ((List.range' firstCell values.length).zip values).reverse

theorem map_fst_lastFirst (firstCell : Nat) (values : List Binary64) :
    (lastFirst firstCell values).map (·.1) = (List.range' firstCell values.length).reverse := by
  rw [lastFirst, List.map_reverse, List.map_fst_zip (by simp)]

theorem map_snd_lastFirst (firstCell : Nat) (values : List Binary64) :
    (lastFirst firstCell values).map (·.2) = values.reverse := by
  rw [lastFirst, List.map_reverse, List.map_snd_zip (by simp)]

theorem length_lastFirst (firstCell : Nat) (values : List Binary64) :
    (lastFirst firstCell values).length = values.length := by
  simp [lastFirst]

theorem nodup_lastFirst (firstCell : Nat) (values : List Binary64) :
    ((lastFirst firstCell values).map (·.1)).Nodup := by
  have distinct : (List.range' firstCell values.length).Nodup := List.nodup_range'
  rw [map_fst_lastFirst]
  exact List.nodup_reverse.mpr distinct

theorem lt_of_mem_lastFirst {firstCell size : Nat} {values : List Binary64}
    (fits : firstCell + values.length ≤ size) :
    ∀ address ∈ (lastFirst firstCell values).map (·.1), address < size := by
  intro address member
  rw [map_fst_lastFirst, List.mem_reverse, List.mem_range'_1] at member
  omega

theorem mem_lastFirst {firstCell position : Nat} {values : List Binary64} {value : Binary64}
    (found : values[position]? = some value) :
    (firstCell + position, value) ∈ lastFirst firstCell values := by
  obtain ⟨inside, rfl⟩ := List.getElem?_eq_some_iff.mp found
  rw [lastFirst, List.mem_reverse]
  apply List.mem_of_getElem? (i := position)
  simp [inside]

theorem stepTimes_arguments {arguments : List Nat} {entry : Nat}
    (has : machine.code.Has machine.pc
      (⟨.pushReturn, .integer (machine.pc + arguments.length + 2 : Nat)⟩ ::
        arguments.map (fun (address : Nat) => ⟨.pass, .integer address⟩) ++
        [⟨.call, .integer entry⟩]))
    (entered : entry ≤ machine.code.size)
    (inside : ∀ address ∈ arguments, address < machine.memory.size) :
    machine.stepTimes (arguments.length + 2) = .ok () { machine with
      pc := entry
      steps := machine.steps + (arguments.length + 2)
      returns := (machine.pc + arguments.length + 2) :: machine.returns
      stack := (arguments.map machine.memory.get).reverse ++ machine.stack } := by
  have size := has.end_le (by simp)
  simp only [List.length_append, List.length_cons, List.length_map, List.length_nil] at size
  obtain ⟨hasFront, hasCall⟩ := has.append
  obtain ⟨pushes, hasPasses⟩ := hasFront.cons
  have calls := hasCall.cons.1
  rw [List.length_cons, List.length_map, Nat.add_comm arguments.length, ← Nat.add_assoc] at calls
  have pushed := step_pushReturn pushes (by omega)
  have passed := @straight_passes { machine.behind 1 machine.stack with
    returns := (machine.pc + arguments.length + 2) :: machine.returns } arguments hasPasses inside
  have called := @step_jump ({ machine.behind 1 machine.stack with
    returns := (machine.pc + arguments.length + 2) :: machine.returns }.behind arguments.length
      ((arguments.map machine.memory.get).reverse ++ machine.stack)) entry _ (.inr rfl) calls entered
  have counted : machine.steps + 1 + arguments.length + 1 = machine.steps + (arguments.length + 2) := by
    omega
  simp only [behind, counted] at called
  exact (stepTimes_succ pushed).trans ((stepTimes_add passed.stepTimes).trans (stepTimes_succ called))

theorem stepTimes_stores {firstCell : Nat} {values : List Binary64}
    (has : machine.code.Has machine.pc (storeAll firstCell values.length))
    (top : machine.stack = values.reverse ++ rest)
    (fits : firstCell + values.length ≤ machine.memory.size) :
    machine.stepTimes values.length = .ok ()
      { machine.behind values.length rest with
        memory := machine.memory.setAll (lastFirst firstCell values) } := by
  have block : storeAll firstCell values.length =
      (lastFirst firstCell values).map fun cell => ⟨.store, .integer (cell.1 : Nat)⟩ := by
    rw [storeAll, ← map_fst_lastFirst, List.map_map]
    rfl
  have stored := straight_stores _ (block ▸ has) (by rw [top, map_snd_lastFirst])
    (lt_of_mem_lastFirst fits)
  rw [length_lastFirst] at stored
  exact stored.stepTimes

theorem get_parameters {firstCell : Nat} {values : List Binary64} {memory : Memory}
    (fits : firstCell + values.length ≤ memory.size) :
    (∀ position value, values[position]? = some value →
      (memory.setAll (lastFirst firstCell values)).get (firstCell + position) = value) ∧
    ∀ address, ¬ (firstCell ≤ address ∧ address < firstCell + values.length) →
      (memory.setAll (lastFirst firstCell values)).get address = memory.get address := by
  constructor
  · intro position value found
    exact Memory.get_setAll_of_mem (nodup_lastFirst firstCell values) (lt_of_mem_lastFirst fits)
      (mem_lastFirst found)
  · intro address outside
    apply Memory.get_setAll_of_not_mem
    rw [map_fst_lastFirst, List.mem_reverse, List.mem_range'_1]
    exact outside

/-- A call and the stores behind its entry: the parameters get the values that the arguments had, and
nothing else in the memory changes. -/
theorem stepTimes_call {arguments : List Nat} {entry firstCell : Nat}
    (has : machine.code.Has machine.pc
      (⟨.pushReturn, .integer (machine.pc + arguments.length + 2 : Nat)⟩ ::
        arguments.map (fun (address : Nat) => ⟨.pass, .integer address⟩) ++
        [⟨.call, .integer entry⟩]))
    (entered : entry ≤ machine.code.size)
    (stores : machine.code.Has entry (storeAll firstCell arguments.length))
    (inside : ∀ address ∈ arguments, address < machine.memory.size)
    (fits : firstCell + arguments.length ≤ machine.memory.size) :
    ∃ memory, machine.stepTimes (2 * arguments.length + 2) = .ok () { machine with
        pc := entry + arguments.length
        steps := machine.steps + (2 * arguments.length + 2)
        returns := (machine.pc + arguments.length + 2) :: machine.returns
        memory } ∧
      memory.size = machine.memory.size ∧
      (∀ (position address : Nat), arguments[position]? = some address →
        memory.get (firstCell + position) = machine.memory.get address) ∧
      ∀ address, ¬ (firstCell ≤ address ∧ address < firstCell + arguments.length) →
        memory.get address = machine.memory.get address := by
  have length : (arguments.map machine.memory.get).length = arguments.length := List.length_map _
  rw [← length] at stores fits
  have begun := stepTimes_arguments has entered inside
  have stored := @stepTimes_stores { machine with
      pc := entry
      steps := machine.steps + (arguments.length + 2)
      returns := (machine.pc + arguments.length + 2) :: machine.returns
      stack := (arguments.map machine.memory.get).reverse ++ machine.stack }
    machine.stack firstCell _ stores rfl fits
  obtain ⟨own, others⟩ := get_parameters fits
  rw [length] at stored others
  have steps : 2 * arguments.length + 2 = arguments.length + 2 + arguments.length := by omega
  have counted : machine.steps + (arguments.length + 2) + arguments.length =
      machine.steps + (arguments.length + 2 + arguments.length) := Nat.add_assoc _ _ _
  simp only [behind, counted] at stored
  rw [steps]
  refine ⟨_, (stepTimes_add begun).trans stored, Memory.size_setAll _ _, ?_, others⟩
  intro position address found
  exact own position _ (by rw [List.getElem?_map, found]; rfl)

end Machine

end Pascalet
