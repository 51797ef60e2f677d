namespace Pascalet

-- Powers of natural numbers are those of the core library, also where Mathlib has its own.
attribute [scoped instance (high), default_instance (high + 1)] instPowNat

/-- A unit is `2 ^ -unitExponent`. -/
def unitExponent : Nat := 1074

def limitExponent : Nat := 1024 + unitExponent

def unitLimit : Nat := 2 ^ limitExponent

def unitsPerOne : Nat := 2 ^ unitExponent

/-- Counts of units that the format holds: those with at most 53 significant bits. -/
def Representable (units : Nat) : Prop :=
  units < unitLimit ∧
    ∃ significand shift, significand < 2 ^ 53 ∧ units = significand * 2 ^ shift

def roundQuotient (num den : Nat) : Nat :=
  let twice := 2 * (num % den)
  if den < twice ∨ twice = den ∧ num / den % 2 = 1 then num / den + 1 else num / den

def excessBits (num den : Nat) : Nat :=
  (num / den).log2 - 52

def roundUnits (num den : Nat) : Nat :=
  let shift := excessBits num den
  roundQuotient num (den * 2 ^ shift) * 2 ^ shift

theorem roundQuotient_le (num den : Nat) : roundQuotient num den ≤ num / den + 1 := by
  unfold roundQuotient
  dsimp only
  split <;> omega

theorem le_roundQuotient (num den : Nat) : num / den ≤ roundQuotient num den := by
  unfold roundQuotient
  dsimp only
  split <;> omega

theorem quotient_excessBits_lt (num den : Nat) :
    num / (den * 2 ^ excessBits num den) < 2 ^ 53 := by
  rw [← Nat.div_div_eq_div_mul]
  apply Nat.div_lt_of_lt_mul
  rw [← Nat.pow_add]
  exact Nat.lt_of_lt_of_le (Nat.lt_log2_self : num / den < 2 ^ _)
    (Nat.pow_le_pow_right (by decide) (by unfold excessBits; omega))

theorem roundUnits_representable {num den : Nat} (finite : roundUnits num den < unitLimit) :
    Representable (roundUnits num den) := by
  refine ⟨finite, ?_⟩
  have below := quotient_excessBits_lt num den
  have rounded := roundQuotient_le num (den * 2 ^ excessBits num den)
  by_cases full : roundQuotient num (den * 2 ^ excessBits num den) = 2 ^ 53
  · exact ⟨1, 53 + excessBits num den, Nat.pow_lt_pow_right (by decide) (by decide : 0 < 53),
      by simp only [roundUnits, full, Nat.pow_add, Nat.one_mul]⟩
  · exact ⟨roundQuotient num (den * 2 ^ excessBits num den), excessBits num den, by omega, rfl⟩

structure Magnitude where
  units : Nat
  representable : Representable units
deriving DecidableEq

namespace Magnitude

def zero : Magnitude :=
  ⟨0, Nat.two_pow_pos _, 0, 0, Nat.two_pow_pos _, rfl⟩

instance : Inhabited Magnitude := ⟨zero⟩

def ofRatio? (num den : Nat) : Option Magnitude :=
  if finite : roundUnits num den < unitLimit then
    some ⟨roundUnits num den, roundUnits_representable finite⟩
  else none

end Magnitude

inductive Binary64 where
  | nan
  | infinite (negative : Bool)
  | finite (negative : Bool) (magnitude : Magnitude)
deriving DecidableEq

namespace Binary64

def zero : Binary64 :=
  finite false Magnitude.zero

instance : Inhabited Binary64 := ⟨zero⟩

def ofRatio (negative : Bool) (num den : Nat) : Binary64 :=
  match Magnitude.ofRatio? num den with
  | some magnitude => finite negative magnitude
  | none => infinite negative

/-- The number nearest to `significand * 10 ^ exponent`. Exponents beyond 400 in size lead out of the
range at once, whatever the significand. -/
def ofDecimal (negative : Bool) (significand : Nat) (exponent : Int) : Binary64 :=
  if significand = 0 then finite negative Magnitude.zero
  else if 400 < exponent then infinite negative
  else if significand.log2 + 1 + exponent < -400 then finite negative Magnitude.zero
  else match exponent with
    | .ofNat up => ofRatio negative (significand * 10 ^ up * unitsPerOne) 1
    | .negSucc down => ofRatio negative (significand * unitsPerOne) (10 ^ (down + 1))

def ofInt? (value : Int) : Option Binary64 :=
  (Magnitude.ofRatio? (value.natAbs * unitsPerOne) 1).map (finite (decide (value < 0)))

/-- Reads the interchange encoding: sign bit, eleven exponent bits, 52 fraction bits. -/
def ofBits (bits : UInt64) : Binary64 :=
  let word := bits.toNat
  let negative := decide (2 ^ 63 ≤ word)
  let exponent := word / 2 ^ 52 % 2048
  let fraction := word % 2 ^ 52
  have fraction_lt : fraction < 2 ^ 52 := Nat.mod_lt _ (Nat.two_pow_pos _)
  have exponent_lt : exponent < 2048 := Nat.mod_lt _ (by decide)
  have double : 2 ^ 53 = 2 ^ 52 * 2 := Nat.pow_succ 2 52
  if special : exponent = 2047 then
    if fraction = 0 then infinite negative else nan
  else if exponent = 0 then
    have inside : 2 ^ 52 < unitLimit := Nat.pow_lt_pow_right (by decide) (by decide)
    finite negative ⟨fraction, Nat.lt_trans fraction_lt inside, fraction, 0, by omega,
      (Nat.mul_one fraction).symm⟩
  else
    finite negative ⟨(2 ^ 52 + fraction) * 2 ^ (exponent - 1), by
      have significand_lt : 2 ^ 52 + fraction < 2 ^ 53 := by omega
      refine ⟨?_, 2 ^ 52 + fraction, exponent - 1, significand_lt, rfl⟩
      refine Nat.lt_of_lt_of_le (Nat.mul_lt_mul_of_pos_right significand_lt (Nat.two_pow_pos _)) ?_
      rw [← Nat.pow_add]
      exact Nat.pow_le_pow_right (by decide) (by simp only [limitExponent, unitExponent]; omega)⟩

end Binary64

end Pascalet
