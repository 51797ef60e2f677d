import Pascalet.Proofs.Binary64.Integer

namespace Pascalet

theorem roundQuotient_mul (num den : Nat) {factor : Nat} (positive : 0 < factor) :
    roundQuotient (num * factor) (den * factor) = roundQuotient num den := by
  have less : den * factor < 2 * (num % den * factor) ↔ den < 2 * (num % den) := by
    rw [← Nat.mul_assoc, Nat.mul_lt_mul_right positive]
  have same : 2 * (num % den * factor) = den * factor ↔ 2 * (num % den) = den := by
    rw [← Nat.mul_assoc, Nat.mul_left_inj (Nat.ne_of_gt positive)]
  unfold roundQuotient
  simp only [Nat.mul_div_mul_right _ _ positive, Nat.mul_mod_mul_right, less, same]

theorem roundUnits_mul (num den : Nat) {factor : Nat} (positive : 0 < factor) :
    roundUnits (num * factor) (den * factor) = roundUnits num den := by
  have bits : excessBits (num * factor) (den * factor) = excessBits num den := by
    rw [excessBits, excessBits, Nat.mul_div_mul_right _ _ positive]
  rw [roundUnits, roundUnits, bits, Nat.mul_right_comm, roundQuotient_mul _ _ positive]

theorem roundUnits_congr {num den other place : Nat} (positive : 0 < den) (positiveToo : 0 < place)
    (same : num * place = other * den) : roundUnits num den = roundUnits other place := by
  rw [← roundUnits_mul num den positiveToo, ← roundUnits_mul other place positive, same,
    Nat.mul_comm den place]

theorem Representable.exists_mul {units : Nat} (representable : Representable units) :
    ∃ whole, units = whole * 2 ^ (units.log2 - 52) := by
  obtain ⟨_, significand, shift, small, shape⟩ := representable
  by_cases fits : units.log2 - 52 ≤ shift
  · refine ⟨significand * 2 ^ (shift - (units.log2 - 52)), ?_⟩
    rw [Nat.mul_assoc, ← Nat.pow_add, Nat.sub_add_cancel fits]
    exact shape
  · -- Otherwise the leading bit stands too high for the significand.
    exfalso
    have nonzero : units ≠ 0 := by
      rintro rfl
      exact fits (Nat.zero_le shift)
    have leading : 2 ^ units.log2 ≤ units := Nat.log2_self_le nonzero
    have above : units < 2 ^ 53 * 2 ^ shift := by
      rw [shape]
      exact Nat.mul_lt_mul_of_pos_right small (Nat.two_pow_pos shift)
    rw [← Nat.pow_add] at above
    have order : 2 ^ (53 + shift) ≤ 2 ^ units.log2 := Nat.pow_le_pow_right (by decide) (by omega)
    omega

theorem roundQuotient_exact (whole : Nat) {den : Nat} (positive : 0 < den) :
    roundQuotient (whole * den) den = whole := by
  unfold roundQuotient
  dsimp only
  rw [Nat.mul_mod_left, Nat.mul_div_cancel _ positive, if_neg (by omega)]

theorem roundUnits_of_representable {units : Nat} (representable : Representable units) :
    roundUnits units 1 = units := by
  obtain ⟨whole, shape⟩ := representable.exists_mul
  rw [roundUnits_one]
  generalize units.log2 - 52 = shift at shape
  rw [shape, roundQuotient_exact _ (Nat.two_pow_pos shift)]

theorem roundUnits_mul_self {units : Nat} (representable : Representable units) {den : Nat}
    (positive : 0 < den) : roundUnits (units * den) den = units := by
  have scaled := roundUnits_mul units 1 positive
  rw [Nat.one_mul] at scaled
  rw [scaled, roundUnits_of_representable representable]

theorem roundUnits_eq_zero {num den : Nat} (small : 2 * num < den) : roundUnits num den = 0 := by
  have below : num < den := by omega
  have bits : excessBits num den = 0 := by
    rw [excessBits, Nat.div_eq_of_lt below]
    rfl
  rw [roundUnits, bits, Nat.pow_zero, Nat.mul_one, Nat.mul_one, roundQuotient, Nat.div_eq_of_lt below,
    Nat.mod_eq_of_lt below]
  rw [if_neg (by omega)]

theorem unitLimit_le_roundUnits {units : Nat} (large : unitLimit ≤ units) :
    unitLimit ≤ roundUnits units 1 := by
  have finite := roundUnits_lt_iff units
  have more := Nat.le_add_right units (2 ^ (limitExponent - 54))
  omega

theorem Magnitude.ext {first second : Magnitude} (same : first.units = second.units) :
    first = second := by
  cases first
  cases second
  cases same
  rfl

namespace Binary64

variable {num den : Nat} {negative : Bool}

-- The match is opened once here: a step that computes it would compute the limit.
theorem ofRatio_eq : ofRatio negative num den =
    ((Magnitude.ofRatio? num den).map (finite negative)).getD (infinite negative) := by
  delta ofRatio
  cases Magnitude.ofRatio? num den with
  | none => rfl
  | some magnitude => rfl

theorem ofRatio_of_roundUnits {magnitude : Magnitude}
    (rounded : roundUnits num den = magnitude.units) :
    ofRatio negative num den = finite negative magnitude := by
  have found : Magnitude.ofRatio? num den = some magnitude := by
    rw [Magnitude.ofRatio?]
    split
    next => exact congrArg some (Magnitude.ext rounded)
    next outside => exact absurd (rounded ▸ magnitude.representable.1) outside
  rw [ofRatio_eq, found, Option.map_some, Option.getD_some]

theorem ofRatio_of_unitLimit_le (outside : unitLimit ≤ roundUnits num den) :
    ofRatio negative num den = infinite negative := by
  have missed : Magnitude.ofRatio? num den = none := by
    rw [Magnitude.ofRatio?]
    split
    next inside => exact absurd outside (Nat.not_le.mpr inside)
    next => rfl
  rw [ofRatio_eq, missed, Option.map_none, Option.getD_none]

theorem ofRatio_congr {other place : Nat} (positive : 0 < den) (positiveToo : 0 < place)
    (same : num * place = other * den) : ofRatio negative num den = ofRatio negative other place := by
  have rounded := roundUnits_congr positive positiveToo same
  by_cases inside : roundUnits other place < unitLimit
  · obtain ⟨magnitude, shown⟩ : ∃ magnitude : Magnitude, roundUnits other place = magnitude.units :=
      ⟨⟨_, roundUnits_representable inside⟩, rfl⟩
    rw [ofRatio_of_roundUnits shown, ofRatio_of_roundUnits (rounded.trans shown)]
  · have outside := Nat.not_lt.mp inside
    rw [ofRatio_of_unitLimit_le outside, ofRatio_of_unitLimit_le (rounded ▸ outside)]

theorem unitLimit_le_of_high {significand up : Nat} (nonzero : significand ≠ 0) (high : 400 < up) :
    unitLimit ≤ significand * 10 ^ up * unitsPerOne := by
  have large : 2 ^ 1024 ≤ 10 ^ 400 := by decide +kernel
  have more (exponent : Nat) (le : exponent ≤ up) : 10 ^ exponent ≤ 10 ^ up :=
    Nat.pow_le_pow_right (by decide) le
  have wide : 2 ^ 1024 ≤ 10 ^ up := Nat.le_trans large (more 400 (Nat.le_of_lt high))
  have room : 10 ^ up ≤ significand * 10 ^ up :=
    Nat.le_mul_of_pos_left _ (Nat.pos_of_ne_zero nonzero)
  have scaled := Nat.mul_le_mul_right unitsPerOne (Nat.le_trans wide room)
  rw [unitLimit_eq]
  exact scaled

theorem lt_half_of_low {significand down : Nat} (low : significand.log2 + 1 + 400 < down) :
    2 * (significand * unitsPerOne) < 10 ^ down := by
  have small : significand < 2 ^ (significand.log2 + 1) := Nat.lt_log2_self
  have order : 2 ^ (significand.log2 + 1) ≤ 10 ^ (significand.log2 + 1) :=
    Nat.pow_le_pow_left (by decide) _
  have exponents : 10 ^ (significand.log2 + 1 + 400) ≤ 10 ^ down :=
    Nat.pow_le_pow_right (by decide) (Nat.le_of_lt low)
  have half : 2 * unitsPerOne ≤ 10 ^ 400 := by decide +kernel
  rw [Nat.pow_add] at exponents
  calc 2 * (significand * unitsPerOne)
      = significand * (2 * unitsPerOne) := by rw [Nat.mul_left_comm]
    _ < 10 ^ (significand.log2 + 1) * (2 * unitsPerOne) :=
        Nat.mul_lt_mul_of_pos_right (Nat.lt_of_lt_of_le small order)
          (Nat.mul_pos (by decide) (Nat.two_pow_pos _))
    _ ≤ 10 ^ (significand.log2 + 1) * 10 ^ 400 := Nat.mul_le_mul_left _ half
    _ ≤ 10 ^ down := exponents

/-- The number nearest to a decimal is the rounding of its quotient: the exponents that are treated
apart lead to the same number. -/
theorem ofDecimal_eq_ofRatio (significand : Nat) (exponent : Int) :
    ofDecimal negative significand exponent =
      ofRatio negative (significand * 10 ^ exponent.toNat * unitsPerOne)
        (10 ^ (-exponent).toNat) := by
  unfold ofDecimal
  split
  next zero =>
    have nothing : roundUnits (significand * 10 ^ exponent.toNat * unitsPerOne)
        (10 ^ (-exponent).toNat) = Magnitude.zero.units := by
      apply roundUnits_eq_zero
      rw [zero, Nat.zero_mul, Nat.zero_mul]
      exact Nat.pow_pos (by decide)
    rw [ofRatio_of_roundUnits nothing]
  next nonzero =>
    split
    next high =>
      have large := unitLimit_le_of_high nonzero (show 400 < exponent.toNat by omega)
      have whole : (-exponent).toNat = 0 := by omega
      rw [whole, Nat.pow_zero, ofRatio_of_unitLimit_le (unitLimit_le_roundUnits large)]
    next =>
      split
      next low =>
        have whole : exponent.toNat = 0 := by omega
        have nothing : roundUnits (significand * unitsPerOne) (10 ^ (-exponent).toNat) =
            Magnitude.zero.units :=
          roundUnits_eq_zero (lt_half_of_low (by omega))
        rw [whole, Nat.pow_zero, Nat.mul_one, ofRatio_of_roundUnits nothing]
      next =>
        cases exponent with
        | ofNat up =>
          have none : (-Int.ofNat up).toNat = 0 := by simp
          rw [none, Nat.pow_zero]
          dsimp only [Int.toNat]
        | negSucc down =>
          rw [Int.neg_negSucc, Int.toNat_negSucc, Nat.pow_zero, Nat.mul_one, Int.toNat_natCast]

theorem ofDecimal_mul_ten_pow (significand : Nat) (exponent : Int) (count : Nat) :
    ofDecimal negative (significand * 10 ^ count) (exponent - count) =
      ofDecimal negative significand exponent := by
  have places : count + (exponent - count).toNat + (-exponent).toNat =
      exponent.toNat + (-(exponent - count)).toNat := by omega
  rw [ofDecimal_eq_ofRatio, ofDecimal_eq_ofRatio]
  apply ofRatio_congr (Nat.pow_pos (by decide)) (Nat.pow_pos (by decide))
  calc significand * 10 ^ count * 10 ^ (exponent - count).toNat * unitsPerOne *
        10 ^ (-exponent).toNat
      = significand * 10 ^ (count + (exponent - count).toNat + (-exponent).toNat) * unitsPerOne := by
        simp only [Nat.pow_add, Nat.mul_assoc, Nat.mul_comm, Nat.mul_left_comm]
    _ = significand * 10 ^ exponent.toNat * unitsPerOne * 10 ^ (-(exponent - count)).toNat := by
        simp only [places, Nat.pow_add, Nat.mul_assoc, Nat.mul_comm, Nat.mul_left_comm]

end Binary64

end Pascalet
