import Pascalet.Binary64.Basic
import Std.Data.TreeMap.Lemmas

namespace Pascalet

structure Memory where
  size : Nat
  written : Std.TreeMap Nat Binary64 := ∅

namespace Memory

def blank (size : Nat) : Memory :=
  { size }

/-- A cell that was never written holds zero. -/
def get (memory : Memory) (address : Nat) : Binary64 :=
  memory.written.getD address Binary64.zero

def set (memory : Memory) (address : Nat) (value : Binary64) : Memory :=
  if address < memory.size then
    { memory with written := memory.written.insert address value }
  else memory

def used (memory : Memory) : List (Nat × Binary64) :=
  memory.written.toList.filter fun (_, value) => value ≠ Binary64.zero

@[simp]
theorem get_blank (size address : Nat) : (blank size).get address = Binary64.zero := by
  simp [blank, get]

@[simp]
theorem size_set (memory : Memory) (address : Nat) (value : Binary64) :
    (memory.set address value).size = memory.size := by
  unfold set
  split <;> rfl

theorem get_set_self {memory : Memory} {address : Nat} (inside : address < memory.size)
    (value : Binary64) : (memory.set address value).get address = value := by
  simp [set, get, inside]

theorem get_set_of_ne {memory : Memory} {address other : Nat} (distinct : address ≠ other)
    (value : Binary64) : (memory.set address value).get other = memory.get other := by
  unfold set
  split
  · have unequal : compare address other ≠ .eq :=
      fun equal => distinct (Std.LawfulEqOrd.eq_of_compare equal)
    simp only [get, Std.TreeMap.getD_insert, unequal, ↓reduceIte]
  · rfl

end Memory

end Pascalet
