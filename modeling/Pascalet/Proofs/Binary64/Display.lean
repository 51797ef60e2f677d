import Pascalet.Binary64.Display
import Pascalet.Proofs.Binary64.Rounding
import Pascalet.Proofs.Numeral.Plain

namespace Pascalet

namespace Numeral

open Text Binary64

variable {digits : List Char} {negative : Bool}

theorem all_isAsciiDigit_zeros (count : Nat) : (zeros count).all isAsciiDigit = true := by
  have zero : isAsciiDigit '0' = true := by decide
  simp [zeros, zero]

theorem all_isAsciiDigit_append {others : List Char} (all : digits.all isAsciiDigit = true)
    (allOthers : others.all isAsciiDigit = true) : (digits ++ others).all isAsciiDigit = true := by
  rw [List.all_append, all, allOthers]
  rfl

theorem digitsValue_append_zeros (digits : List Char) (count : Nat) :
    digitsValue (digits ++ zeros count) = digitsValue digits * 10 ^ count := by
  have zero : '0'.toNat - '0'.toNat = 0 := rfl
  induction count with
  | zero => simp [zeros]
  | succ count ih =>
    have longer : zeros (count + 1) = zeros count ++ ['0'] := List.replicate_succ'
    rw [longer, ← List.append_assoc, digitsValue_append, ih, zero, Nat.add_zero, Nat.pow_succ,
      Nat.mul_assoc]

theorem digitsValue_zeros_append (count : Nat) (digits : List Char) :
    digitsValue (zeros count ++ digits) = digitsValue digits := by
  have leading (rest : List Char) : digitsValue ('0' :: rest) = digitsValue rest := rfl
  induction count with
  | zero => rfl
  | succ count ih => exact (leading _).trans ih

def exponentPart (width : Nat) (exponent : Int) : List Char :=
  'e' :: (if exponent < 0 then '-' else '+') ::
    (zeros (width - (Nat.toDigits 10 exponent.natAbs).length) ++ Nat.toDigits 10 exponent.natAbs)

theorem exponent?_exponentPart (width : Nat) (exponent : Int) :
    exponent? (exponentPart width exponent) = some exponent := by
  unfold exponentPart
  generalize width - (Nat.toDigits 10 exponent.natAbs).length = count
  have all := all_isAsciiDigit_append (all_isAsciiDigit_zeros count)
    (all_isAsciiDigit_toDigits exponent.natAbs)
  have value : digitsValue (zeros count ++ Nat.toDigits 10 exponent.natAbs) = exponent.natAbs := by
    rw [digitsValue_zeros_append, digitsValue_toDigits]
  have present : (zeros count ++ Nat.toDigits 10 exponent.natAbs).isEmpty = false := by
    simp [Nat.toDigits_ne_nil]
  generalize zeros count ++ Nat.toDigits 10 exponent.natAbs = digits at *
  have minus : exponent? ('e' :: '-' :: digits) = some (-(digitsValue digits : Int)) := by
    simp [exponent?, splitSign, all, present]
  have plus : exponent? ('e' :: '+' :: digits) = some (digitsValue digits : Int) := by
    simp [exponent?, splitSign, all, present]
  by_cases below : exponent < 0
  · have size : -(exponent.natAbs : Int) = exponent := by omega
    rw [if_pos below, minus, value, size]
  · have size : (exponent.natAbs : Int) = exponent := by omega
    rw [if_neg below, plus, value, size]

theorem head_exponentPart (width : Nat) (exponent : Int) :
    ∀ c ∈ (exponentPart width exponent).head?, isAsciiDigit c = false ∧ c ≠ '.' := by
  rintro _ ⟨⟩
  decide

end Numeral

namespace Binary64

open Text Numeral

theorem exists_zeros_dropTrailingZeros (digits : List Char) :
    ∃ count, digits = dropTrailingZeros digits ++ zeros count := by
  have same : ∀ c ∈ digits.reverse.takeWhile (· == '0'), c = '0' := by
    intro c found
    have all : (digits.reverse.takeWhile (· == '0')).all (· == '0') = true := List.all_takeWhile
    exact eq_of_beq (List.all_eq_true.mp all c found)
  refine ⟨(digits.reverse.takeWhile (· == '0')).length, ?_⟩
  calc digits
      = (digits.reverse.takeWhile (· == '0') ++ digits.reverse.dropWhile (· == '0')).reverse := by
        rw [List.takeWhile_append_dropWhile, List.reverse_reverse]
    _ = dropTrailingZeros digits ++ zeros _ := by
        rw [List.reverse_append, List.eq_replicate_of_mem same, List.reverse_replicate,
          List.length_replicate]
        rfl

variable {digits : List Char} {negative : Bool}

/-- Digits around a point that spell the digits of a decimal, with so many zeros behind them. -/
inductive Pointed (digits : List Char) (point : Int) : (text : List Char) → Prop where
  | intro {whole fraction : List Char} {count : Nat} (nonempty : whole ≠ [])
    (front : whole.all isAsciiDigit = true) (back : fraction.all isAsciiDigit = true)
    (value : digitsValue (whole ++ fraction) = digitsValue digits * 10 ^ count)
    (place : point - digits.length = -(fraction.length : Int) + count) :
    Pointed digits point (whole ++ '.' :: fraction)

theorem pointed_positional (all : digits.all isAsciiDigit = true) (present : digits ≠ [])
    (point : Int) : Pointed digits point (positional digits point) := by
  have zero : ['0'].all isAsciiDigit = true := by decide
  have leading (rest : List Char) : digitsValue (['0'] ++ rest) = digitsValue rest := rfl
  have one : digitsValue digits * 10 ^ 0 = digitsValue digits := Nat.mul_one _
  unfold positional
  split
  next whole =>
    split
    next first =>
      apply @Pointed.intro digits _ ['0'] digits 0 (by simp) zero all
      · rw [leading, one]
      · simp [first]
    next later =>
      split
      next long =>
        have more := all_isAsciiDigit_append all (all_isAsciiDigit_zeros (whole - digits.length))
        have longer : zeros (whole - digits.length) ++ ['0'] = zeros (whole - digits.length + 1) :=
          List.replicate_succ'.symm
        apply @Pointed.intro digits _ _ ['0'] (whole - digits.length + 1) (by simp [present]) more zero
        · rw [List.append_assoc, longer, digitsValue_append_zeros]
        · simp
          omega
      next short =>
        have front : (digits.take whole).all isAsciiDigit = true := by
          rw [List.all_eq_true] at all ⊢
          exact fun c found => all c (List.mem_of_mem_take found)
        have back : (digits.drop whole).all isAsciiDigit = true := by
          rw [List.all_eq_true] at all ⊢
          exact fun c found => all c (List.mem_of_mem_drop found)
        apply @Pointed.intro digits _ _ _ 0 (by simp [later, present]) front back
        · rw [List.take_append_drop, one]
        · rw [List.length_drop]
          simp
          omega
  next gap =>
    have back := all_isAsciiDigit_append (all_isAsciiDigit_zeros (gap + 1)) all
    apply @Pointed.intro digits _ ['0'] (zeros (gap + 1) ++ digits) 0 (by simp) zero back
    · rw [leading, digitsValue_zeros_append, one]
    · rw [List.length_append, zeros, List.length_replicate]
      omega

theorem Pointed.decimal? {text : List Char} {point : Int} (pointed : Pointed digits point text) :
    Numeral.decimal? negative text =
      some (ofDecimal negative (digitsValue digits) (point - digits.length)) := by
  obtain @⟨whole, fraction, count, nonempty, front, back, value, place⟩ := pointed
  have ends : ∀ c ∈ ([] : List Char).head?, isAsciiDigit c = false := by simp
  have read := decimal?_append_point negative front back (.inl nonempty) ends
  rw [List.append_nil] at read
  have shifted : (0 : Int) - fraction.length = point - digits.length - count := by omega
  rw [read, exponent?, Option.map_some, value, shifted, ofDecimal_mul_ten_pow]

theorem exponential_cons (width : Nat) (c : Char) (rest : List Char) (exponent : Int) :
    exponential width (c :: rest) exponent =
      [c] ++ ((if rest = [] then [] else '.' :: rest) ++ exponentPart width exponent) := by
  cases rest with
  | nil => rfl
  | cons d others => simp [exponential, exponentPart]

theorem decimal?_exponential (all : digits.all isAsciiDigit = true) (present : digits ≠ [])
    (width : Nat) (exponent : Int) : decimal? negative (exponential width digits exponent) =
      some (ofDecimal negative (digitsValue digits) (exponent + 1 - digits.length)) := by
  obtain ⟨c, rest, rfl⟩ := List.exists_cons_of_ne_nil present
  rw [List.all_cons, Bool.and_eq_true] at all
  have single : [c].all isAsciiDigit = true := by simp [all.1]
  have ends := head_exponentPart width exponent
  rw [exponential_cons]
  by_cases alone : rest = []
  · subst alone
    have read := decimal?_append negative single (by simp) ends
    rw [exponent?_exponentPart, Option.map_some] at read
    have place : exponent + 1 - [c].length = exponent := by simp
    rw [if_pos rfl, List.nil_append, read, place]
  · have read := decimal?_append_point negative single all.2 (.inl (by simp)) fun c first =>
      (ends c first).1
    rw [exponent?_exponentPart, Option.map_some] at read
    have place : exponent + 1 - (c :: rest).length = exponent - rest.length := by
      rw [List.length_cons]
      omega
    rw [if_neg alone, place]
    exact read

theorem decimal?_decimalText (layout : Layout) {significand : Nat} (nonzero : significand ≠ 0)
    (exponent : Int) : decimal? negative (decimalText layout significand exponent) =
      some (ofDecimal negative significand exponent) := by
  obtain ⟨count, split⟩ := exists_zeros_dropTrailingZeros (Nat.toDigits 10 significand)
  have all : (dropTrailingZeros (Nat.toDigits 10 significand)).all isAsciiDigit = true := by
    have every := all_isAsciiDigit_toDigits significand
    rw [split, List.all_append, Bool.and_eq_true] at every
    exact every.1
  have value : digitsValue (dropTrailingZeros (Nat.toDigits 10 significand)) * 10 ^ count =
      significand := by
    rw [← digitsValue_append_zeros, ← split, digitsValue_toDigits]
  have present : dropTrailingZeros (Nat.toDigits 10 significand) ≠ [] := by
    intro nothing
    rw [nothing] at value
    exact nonzero (value.symm.trans (Nat.zero_mul _))
  have length := congrArg List.length split
  rw [List.length_append, zeros, List.length_replicate] at length
  have moved : ofDecimal negative (digitsValue (dropTrailingZeros (Nat.toDigits 10 significand)))
      (exponent + count) = ofDecimal negative significand exponent := by
    rw [← ofDecimal_mul_ten_pow _ _ count, value, Int.add_sub_cancel]
  rw [← moved, decimalText, if_neg (by simp [present])]
  split
  · rw [(pointed_positional all present _).decimal?]
    congr 2
    omega
  · rw [decimal?_exponential all present]
    congr 2
    omega

theorem exists_mark_decimalText (layout : Layout) (significand : Nat) (exponent : Int) :
    ∃ c ∈ decimalText layout significand exponent, isAsciiDigit c = false ∧ c ≠ '-' := by
  have point : isAsciiDigit '.' = false ∧ '.' ≠ '-' := by decide
  have letter : isAsciiDigit 'e' = false ∧ 'e' ≠ '-' := by decide
  unfold decimalText
  dsimp only
  split
  · exact ⟨'.', by simp, point⟩
  · split
    · refine ⟨'.', ?_, point⟩
      unfold positional
      split
      · split
        · simp
        · split <;> simp
      · simp
    · exact ⟨'e', by simp [exponential], letter⟩

end Binary64

end Pascalet
