import Pascalet.Proofs.Machine.Effect

namespace Pascalet.Machine

/-- Steps that all succeed, each of them on to the next instruction. -/
inductive Straight : Nat → Machine → Machine → Prop where
  | none {machine : Machine} : Straight 0 machine machine
  | more {count : Nat} {first next last : Machine} (stepped : first.step = .ok () next)
    (onward : next.pc = first.pc + 1) (rest : Straight count next last) :
    Straight (count + 1) first last

variable {machine first middle last : Machine} {count others : Nat}

theorem Straight.one (stepped : first.step = .ok () last) (onward : last.pc = first.pc + 1) :
    Straight 1 first last :=
  .more stepped onward .none

theorem Straight.trans (begun : Straight count first middle) (rest : Straight others middle last) :
    Straight (count + others) first last := by
  induction begun with
  | none => rwa [Nat.zero_add]
  | more stepped onward _ ih =>
    rw [Nat.add_right_comm]
    exact .more stepped onward (ih rest)

theorem stepTimes_succ (stepped : first.step = .ok () middle) :
    stepTimes (count + 1) first = stepTimes count middle := by
  simp only [stepTimes, bind_apply, stepped]

theorem stepTimes_add (begun : stepTimes count first = .ok () middle) :
    stepTimes (count + others) first = stepTimes others middle := by
  induction count generalizing first with
  | zero =>
    cases begun
    rw [Nat.zero_add]
  | succ count ih =>
    rw [Nat.add_right_comm]
    simp only [stepTimes, bind_apply] at begun ⊢
    cases stepped : step first with
    | error error stopped => rw [stepped] at begun; cases begun
    | ok _ next =>
      rw [stepped] at begun
      exact ih begun

theorem Straight.stepTimes (straight : Straight count first last) :
    stepTimes count first = .ok () last := by
  induction straight with
  | none => rfl
  | more stepped _ _ ih => rw [stepTimes_succ stepped, ih]

section Behind

variable (machine : Machine) (count : Nat) (stack : List Binary64)

@[simp]
theorem behind_code : (machine.behind count stack).code = machine.code := rfl

@[simp]
theorem behind_memory : (machine.behind count stack).memory = machine.memory := rfl

@[simp]
theorem behind_stack : (machine.behind count stack).stack = stack := rfl

@[simp]
theorem behind_pc : (machine.behind count stack).pc = machine.pc + count := rfl

@[simp]
theorem behind_behind (others : Nat) (next : List Binary64) :
    (machine.behind count stack).behind others next = machine.behind (count + others) next := by
  simp only [behind, Nat.add_assoc]

end Behind

theorem Straight.snoc {stack next : List Binary64}
    (begun : Straight count machine (machine.behind count stack))
    (stepped : (machine.behind count stack).step =
      .ok () ((machine.behind count stack).behind 1 next)) :
    Straight (count + 1) machine (machine.behind (count + 1) next) := by
  rw [behind_behind] at stepped
  exact begun.trans (.one stepped rfl)

end Pascalet.Machine
