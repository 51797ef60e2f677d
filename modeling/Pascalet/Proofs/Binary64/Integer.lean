import Pascalet.Binary64.Basic

namespace Pascalet

theorem roundQuotient_lt_iff {num half bound : Nat} (even : bound % 2 = 0) (positive : 0 < half)
    (below : num < bound * (2 * half)) :
    roundQuotient num (2 * half) < bound ↔ num + half < bound * (2 * half) := by
  have parts := Nat.div_add_mod num (2 * half)
  have remainder := Nat.mod_lt num (show 0 < 2 * half by omega)
  have quotient : num / (2 * half) < bound := Nat.div_lt_of_lt_mul (by rwa [Nat.mul_comm])
  have rounded := roundQuotient_le num (2 * half)
  rw [Nat.mul_comm bound] at below ⊢
  unfold roundQuotient at rounded ⊢
  dsimp only at rounded ⊢
  generalize num / (2 * half) = whole at *
  generalize num % (2 * half) = rest at *
  obtain ⟨gap, rfl⟩ := Nat.exists_eq_add_of_lt quotient
  cases gap with
  | zero =>
    -- The last quotient is odd, so the middle itself is rounded up.
    have odd : whole % 2 = 1 := by omega
    rw [Nat.add_zero, Nat.mul_add] at below ⊢
    split <;> omega
  | succ gap =>
    have room : 2 * half * (whole + 2) ≤ 2 * half * (whole + (gap + 1) + 1) :=
      Nat.mul_le_mul_left _ (by omega)
    rw [Nat.mul_add] at room
    constructor <;> intro _ <;> omega

theorem roundUnits_one (units : Nat) : roundUnits units 1 =
    roundQuotient units (2 ^ (units.log2 - 52)) * 2 ^ (units.log2 - 52) := by
  rw [roundUnits, excessBits, Nat.div_one, Nat.one_mul]

theorem two_pow_log2_le_roundUnits {units : Nat} (wide : 52 ≤ units.log2) :
    2 ^ units.log2 ≤ roundUnits units 1 := by
  have nonzero : units ≠ 0 := by
    rintro rfl
    exact absurd wide (by decide)
  have leading : 2 ^ units.log2 = 2 ^ 52 * 2 ^ (units.log2 - 52) := by
    rw [← Nat.pow_add, Nat.add_sub_cancel' wide]
  have quotient : 2 ^ 52 ≤ units / 2 ^ (units.log2 - 52) := by
    rw [Nat.le_div_iff_mul_le (Nat.two_pow_pos _), ← leading]
    exact Nat.log2_self_le nonzero
  rw [leading, roundUnits_one]
  exact Nat.mul_le_mul_right _ (Nat.le_trans quotient (le_roundQuotient _ _))

theorem roundUnits_lt_iff (units : Nat) :
    roundUnits units 1 < unitLimit ↔ units + 2 ^ (limitExponent - 54) < unitLimit := by
  -- The exponent is a variable, so that no step computes the power.
  obtain ⟨low, split⟩ : ∃ low, limitExponent = low + 54 := ⟨2044, rfl⟩
  have limit : unitLimit = 2 ^ 53 * (2 * 2 ^ low) := by
    rw [unitLimit, split, Nat.pow_add]
    omega
  have whole : 2 ^ (low + 53) = 2 ^ low * 2 ^ 53 := Nat.pow_add 2 low 53
  have above : units < 2 ^ (units.log2 + 1) := Nat.lt_log2_self
  have rounded := roundUnits_one units
  rw [split, Nat.add_sub_cancel, limit]
  rcases Nat.lt_trichotomy units.log2 (low + 53) with small | last | large
  · have top : 2 ^ (units.log2 + 1) ≤ 2 ^ (low + 53) := Nat.pow_le_pow_right (by decide) small
    have step : 2 ^ (units.log2 - 52) ≤ 2 ^ low := Nat.pow_le_pow_right (by decide) (by omega)
    have parts := Nat.div_mul_le_self units (2 ^ (units.log2 - 52))
    have near := Nat.mul_le_mul_right (2 ^ (units.log2 - 52))
      (roundQuotient_le units (2 ^ (units.log2 - 52)))
    rw [Nat.succ_mul] at near
    constructor <;> intro _ <;> omega
  · have exponent : units.log2 - 52 = low + 1 := by omega
    have last : units.log2 + 1 = low + 53 + 1 := by omega
    rw [last, Nat.pow_succ, whole] at above
    rw [rounded, exponent, Nat.pow_succ', Nat.mul_lt_mul_right (by omega)]
    exact roundQuotient_lt_iff (by decide) (Nat.two_pow_pos low) (by omega)
  · have leading := two_pow_log2_le_roundUnits (show 52 ≤ units.log2 by omega)
    have beyond : 2 ^ (low + 53 + 1) ≤ 2 ^ units.log2 := Nat.pow_le_pow_right (by decide) large
    have bottom : 2 ^ units.log2 ≤ units := Nat.log2_self_le (by rintro rfl; simp at large)
    rw [Nat.pow_succ, whole] at beyond
    constructor <;> intro _ <;> omega

theorem unitLimit_eq : unitLimit = 2 ^ 1024 * unitsPerOne := by
  unfold unitLimit limitExponent unitsPerOne
  exact Nat.pow_add 2 1024 unitExponent

namespace Binary64

variable (value : Int)

theorem ofInt?_eq_none_iff_of_limit {beyond half : Nat} (limit : unitLimit = beyond * unitsPerOne)
    (middle : 2 ^ (limitExponent - 54) = half * unitsPerOne) :
    ofInt? value = none ↔ beyond - half ≤ value.natAbs := by
  have one : 0 < unitsPerOne := Nat.two_pow_pos unitExponent
  have finite := roundUnits_lt_iff (value.natAbs * unitsPerOne)
  rw [middle, ← Nat.add_mul, limit, Nat.mul_lt_mul_right one, ← limit] at finite
  rw [Nat.sub_le_iff_le_add, ← Nat.not_lt, ← finite, ofInt?, Option.map_eq_none_iff, Magnitude.ofRatio?]
  split
  next inside => simp only [inside, reduceCtorEq, not_true_eq_false]
  next outside => simp only [outside, not_false_eq_true]

/-- An integer is too large from the middle between the largest finite number, which is
`2 ^ 1024 - 2 ^ 971`, and `2 ^ 1024` on. -/
theorem ofInt?_eq_none_iff : ofInt? value = none ↔ 2 ^ 1024 - 2 ^ 970 ≤ value.natAbs := by
  have middle : 2 ^ (limitExponent - 54) = 2 ^ 970 * unitsPerOne := by
    have split : limitExponent - 54 = 970 + unitExponent := rfl
    rw [split]
    unfold unitsPerOne
    exact Nat.pow_add 2 970 unitExponent
  have limited := ofInt?_eq_none_iff_of_limit value unitLimit_eq middle
  exact limited

end Binary64

end Pascalet
