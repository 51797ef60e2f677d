import Pascalet.Binary64.Basic

namespace Pascalet.Binary64

def decimalsPerUnit : Nat := 5 ^ unitExponent

def digitChunk : Nat := 16

def digitCountWithin : (chunks : Nat) → Nat → Nat
  | 0, n => (Nat.toDigits 10 n).length
  | chunks + 1, n =>
    if n < 10 ^ digitChunk then (Nat.toDigits 10 n).length
    else digitCountWithin chunks (n / 10 ^ digitChunk) + digitChunk

def digitCount (n : Nat) : Nat :=
  digitCountWithin n.log2 n

theorem length_toDigits_div {n count : Nat} (le : 10 ^ count ≤ n) :
    (Nat.toDigits 10 n).length = (Nat.toDigits 10 (n / 10 ^ count)).length + count := by
  induction count with
  | zero => simp
  | succ count ih =>
    rw [Nat.pow_succ] at le ⊢
    have positive : 0 < 10 ^ count := Nat.pow_pos (by decide)
    have enough : 10 ≤ n / 10 ^ count := by
      rw [Nat.le_div_iff_mul_le positive]
      omega
    rw [ih (by omega), Nat.toDigits_eq_if (by decide), if_neg (by omega),
      ← Nat.div_div_eq_div_mul]
    simp only [List.length_append, List.length_cons, List.length_nil]
    omega

theorem digitCountWithin_eq (chunks n : Nat) :
    digitCountWithin chunks n = (Nat.toDigits 10 n).length := by
  induction chunks generalizing n with
  | zero => rfl
  | succ chunks ih =>
    rw [digitCountWithin]
    split
    · rfl
    next large => rw [ih, length_toDigits_div (Nat.le_of_not_lt large)]

theorem digitCount_eq (n : Nat) : digitCount n = (Nat.toDigits 10 n).length :=
  digitCountWithin_eq n.log2 n

def readsBack (units decimals : Nat) : Bool :=
  roundUnits decimals decimalsPerUnit == units

/-- The multiple of `step` beside `decimals` that reads back, the nearer one if both do, and the even
one if both are equally near. -/
def neighbour? (units decimals step : Nat) : Option Nat :=
  let low := decimals / step
  let twice := 2 * (decimals % step)
  match readsBack units (low * step), readsBack units ((low + 1) * step) with
  | true, true =>
    if twice < step ∨ twice = step ∧ low % 2 = 0 then some low else some (low + 1)
  | true, false => some low
  | false, true => some (low + 1)
  | false, false => none

def decimalDropping? (units dropped : Nat) : Option (Nat × Int) :=
  (neighbour? units (units * decimalsPerUnit) (10 ^ dropped)).map fun significand =>
    (significand, dropped - unitExponent)

/-- The search ends at 17 digits, which always suffice; the exact value stands behind it. -/
def shortestDecimal (units : Nat) : Nat × Int :=
  let length := digitCount (units * decimalsPerUnit)
  ((List.range 17).findSome? fun n => decimalDropping? units (length - (n + 1))).getD
    (units * decimalsPerUnit, -unitExponent)

end Pascalet.Binary64
