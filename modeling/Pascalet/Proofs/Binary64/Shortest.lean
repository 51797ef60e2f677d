import Pascalet.Binary64.Shortest
import Pascalet.Proofs.Binary64.Rounding

namespace Pascalet.Binary64

theorem decimalsPerUnit_pos : 0 < decimalsPerUnit := by
  unfold decimalsPerUnit
  exact Nat.pow_pos (by decide)

variable {units significand : Nat} {negative : Bool}

theorem readsBack_of_neighbour? {decimals step : Nat}
    (found : neighbour? units decimals step = some significand) :
    readsBack units (significand * step) = true := by
  unfold neighbour? at found
  dsimp only at found
  split at found
  next low high =>
    split at found
    · cases found
      exact low
    · cases found
      exact high
  next low _ =>
    cases found
    exact low
  next _ high =>
    cases found
    exact high
  next => cases found

theorem exists_readsBack_shortestDecimal (representable : Representable units) :
    ∃ significand dropped : Nat,
      shortestDecimal units = (significand, (dropped : Int) - unitExponent) ∧
        readsBack units (significand * 10 ^ dropped) = true := by
  unfold shortestDecimal
  dsimp only
  cases found : (List.range 17).findSome? fun n =>
      decimalDropping? units (digitCount (units * decimalsPerUnit) - (n + 1)) with
  | some decimal =>
    obtain ⟨n, _, dropping⟩ := List.exists_of_findSome?_eq_some found
    obtain ⟨significand, beside, rfl⟩ := Option.map_eq_some_iff.mp dropping
    exact ⟨significand, _, rfl, readsBack_of_neighbour? beside⟩
  | none =>
    refine ⟨units * decimalsPerUnit, 0, ?_, ?_⟩
    · rw [Option.getD_none, Int.natCast_zero, Int.zero_sub]
    · rw [readsBack, Nat.pow_zero, Nat.mul_one, roundUnits_mul_self representable decimalsPerUnit_pos]
      exact beq_self_eq_true units

theorem ne_zero_of_readsBack {dropped : Nat} (nonzero : units ≠ 0)
    (reads : readsBack units (significand * 10 ^ dropped) = true) : significand ≠ 0 := by
  rintro rfl
  rw [readsBack, Nat.zero_mul, roundUnits_eq_zero decimalsPerUnit_pos] at reads
  exact nonzero (eq_of_beq reads).symm

theorem ofDecimal_of_readsBack {magnitude : Magnitude} {dropped : Nat}
    (reads : readsBack magnitude.units (significand * 10 ^ dropped) = true) :
    ofDecimal negative significand (dropped - unitExponent) = finite negative magnitude := by
  have rounded : roundUnits (significand * 10 ^ dropped) decimalsPerUnit = magnitude.units :=
    eq_of_beq reads
  have one : unitsPerOne * decimalsPerUnit = 10 ^ unitExponent := by
    have ten : 10 = 2 * 5 := rfl
    rw [unitsPerOne, decimalsPerUnit, ten, Nat.mul_pow]
  have places : ((dropped : Int) - unitExponent).toNat + unitExponent =
      dropped + (-((dropped : Int) - unitExponent)).toNat := by omega
  rw [ofDecimal_eq_ofRatio, ← ofRatio_of_roundUnits rounded]
  apply ofRatio_congr (Nat.pow_pos (by decide)) decimalsPerUnit_pos
  rw [Nat.mul_assoc, Nat.mul_assoc, Nat.mul_assoc, one, ← Nat.pow_add, ← Nat.pow_add, places]

end Pascalet.Binary64
