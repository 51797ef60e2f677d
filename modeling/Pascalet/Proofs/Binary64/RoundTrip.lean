import Mathlib.Algebra.Order.Field.Rat
import Pascalet.Proofs.Binary64.Display
import Pascalet.Proofs.Binary64.Shortest
import Pascalet.Proofs.Machine.Surroundings
import Pascalet.Proofs.Text.Segments

namespace Pascalet.Binary64

open Text Numeral

def toRat? : Binary64 → Option ℚ
  | finite negative magnitude => some (signedUnits negative magnitude / unitsPerOne)
  | _ => none

/-- What a number is read back as: the sign of zero is lost. -/
def unsignedZero (value : Binary64) : Binary64 :=
  if value.isZero then zero else value

def IsSignedDigits (text : List Char) : Prop :=
  ∃ sign digits, text = sign ++ digits ∧ (sign = [] ∨ sign = ['-']) ∧ digits ≠ [] ∧
    digits.all isAsciiDigit = true

theorem unitsPerOne_pos : 0 < unitsPerOne :=
  Nat.two_pow_pos unitExponent

variable {negative : Bool} {magnitude : Magnitude} {value : Binary64} {whole : Int}

theorem isZero_finite : (finite negative magnitude).isZero = decide (magnitude.units = 0) := by
  cases negative with
  | false => simp [isZero, position?, signedUnits, Bool.beq_eq_decide_eq]
  | true => simp [isZero, position?, signedUnits, Bool.beq_eq_decide_eq]

theorem unsignedZero_finite_of_ne_zero (nonzero : magnitude.units ≠ 0) :
    (finite negative magnitude).unsignedZero = finite negative magnitude := by
  rw [unsignedZero, isZero_finite, decide_eq_false nonzero, if_neg Bool.false_ne_true]

theorem unsignedZero_finite_of_eq_zero (nothing : magnitude.units = 0) :
    (finite negative magnitude).unsignedZero = zero := by
  rw [unsignedZero, isZero_finite, decide_eq_true nothing, if_pos rfl]

section Integral

theorem integral?_finite_iff : (finite negative magnitude).integral? = some whole ↔
    signedUnits negative magnitude = whole * unitsPerOne := by
  have positive := unitsPerOne_pos
  have parts := Nat.div_add_mod magnitude.units unitsPerOne
  -- The number of units in one is a variable here, so that it is never computed.
  unfold integral? signedUnits
  dsimp only
  generalize unitsPerOne = one at *
  generalize magnitude.units = units at *
  have nonzero : (one : Int) ≠ 0 := by omega
  by_cases divides : units % one = 0
  · have quotient : (units : Int) = (units / one : Nat) * one := by
      rw [divides, Nat.add_zero, Nat.mul_comm] at parts
      exact_mod_cast parts.symm
    have ratio : (units : Int) / one = (units / one : Nat) := by
      rw [quotient, Int.mul_ediv_cancel _ nonzero]
    rw [if_pos divides, Option.some_inj, ratio]
    cases negative with
    | false => rw [if_neg Bool.false_ne_true, if_neg Bool.false_ne_true, quotient,
        Int.mul_eq_mul_right_iff nonzero]
    | true => rw [if_pos rfl, if_pos rfl, quotient, ← Int.neg_mul, Int.mul_eq_mul_right_iff nonzero]
  · rw [if_neg divides]
    refine ⟨nofun, ?_⟩
    intro same
    have size : units = whole.natAbs * one := by
      have sizes := congrArg Int.natAbs same
      rw [Int.natAbs_mul, Int.natAbs_natCast] at sizes
      rw [← sizes]
      cases negative with
      | false => simp
      | true => simp
    rw [size, Nat.mul_mod_left] at divides
    exact absurd rfl divides

theorem integral?_eq_some_iff : value.integral? = some whole ↔ value.toRat? = some (whole : ℚ) := by
  cases value with
  | nan => simp [integral?, toRat?]
  | infinite negative => simp [integral?, toRat?]
  | finite negative magnitude =>
    have positive : (unitsPerOne : ℚ) ≠ 0 := by
      exact_mod_cast Nat.ne_of_gt unitsPerOne_pos
    rw [integral?_finite_iff, toRat?, Option.some_inj, div_eq_iff positive]
    constructor
    · intro same
      exact_mod_cast congrArg (Int.cast : Int → ℚ) same
    · intro same
      exact_mod_cast same

theorem units_of_integral? (integral : (finite negative magnitude).integral? = some whole) :
    magnitude.units = whole.natAbs * unitsPerOne := by
  have sizes := congrArg Int.natAbs (integral?_finite_iff.mp integral)
  rw [Int.natAbs_mul, Int.natAbs_natCast] at sizes
  rw [← sizes]
  cases negative with
  | false => simp [signedUnits]
  | true => simp [signedUnits]

theorem negative_of_integral? (integral : (finite negative magnitude).integral? = some whole)
    (nonzero : magnitude.units ≠ 0) : decide (whole < 0) = negative := by
  have same := integral?_finite_iff.mp integral
  have size := units_of_integral? integral
  have positive := unitsPerOne_pos
  unfold signedUnits at same
  generalize unitsPerOne = one at *
  generalize magnitude.units = units at *
  cases negative with
  | false =>
    apply decide_eq_false
    intro below
    have product := Int.mul_neg_of_neg_of_pos below (by omega : (0 : Int) < one)
    rw [← same, if_neg Bool.false_ne_true] at product
    omega
  | true =>
    apply decide_eq_true
    apply Int.lt_of_not_ge
    intro natural
    have product := Int.mul_nonneg natural (by omega : (0 : Int) ≤ one)
    rw [← same, if_pos rfl] at product
    omega

theorem ofDecimal_of_units {count : Nat} (size : magnitude.units = count * unitsPerOne) :
    ofDecimal negative count 0 = finite negative magnitude := by
  have one : 10 ^ 0 = 1 := rfl
  rw [ofDecimal_eq_ofRatio, Int.toNat_zero, Int.neg_zero, Int.toNat_zero, one, Nat.mul_one, ← size]
  exact ofRatio_of_roundUnits (roundUnits_of_representable magnitude.representable)

theorem decimal?_of_integral? (integral : (finite negative magnitude).integral? = some whole) :
    decimal? (decide (whole < 0)) (Nat.toDigits 10 whole.natAbs) =
      some (finite negative magnitude).unsignedZero := by
  have size := units_of_integral? integral
  have ends : ∀ c ∈ ([] : List Char).head?, isAsciiDigit c = false ∧ c ≠ '.' := by simp
  have read := decimal?_append (decide (whole < 0)) (all_isAsciiDigit_toDigits whole.natAbs)
    Nat.toDigits_ne_nil ends
  rw [List.append_nil, exponent?, Option.map_some, digitsValue_toDigits,
    ofDecimal_of_units size] at read
  rw [read]
  by_cases nothing : magnitude.units = 0
  · have natural : decide (whole < 0) = false := by
      rw [nothing] at size
      have none : whole.natAbs = 0 :=
        (Nat.mul_eq_zero.mp size.symm).resolve_right (Nat.ne_of_gt unitsPerOne_pos)
      rw [Int.natAbs_eq_zero.mp none]
      rfl
    have same : magnitude = Magnitude.zero := Magnitude.ext nothing
    rw [unsignedZero_finite_of_eq_zero nothing, natural, same]
    rfl
  · rw [unsignedZero_finite_of_ne_zero nothing, negative_of_integral? integral nothing]

end Integral

theorem decimal?_of_not_integral? (fractional : (finite negative magnitude).integral? = none) :
    decimal? negative (decimalText layout (shortestDecimal magnitude.units).1
        (shortestDecimal magnitude.units).2) = some (finite negative magnitude).unsignedZero := by
  have nonzero : magnitude.units ≠ 0 := by
    intro nothing
    rw [integral?, nothing, Nat.zero_mod, if_pos rfl] at fractional
    cases fractional
  obtain ⟨significand, dropped, decimal, reads⟩ :=
    exists_readsBack_shortestDecimal magnitude.representable
  rw [decimal, unsignedZero_finite_of_ne_zero nonzero,
    decimal?_decimalText layout (ne_zero_of_readsBack nonzero reads), ofDecimal_of_readsBack reads]

theorem toList_signed (negative : Bool) (text : List Char) :
    (signed negative text).toList = (if negative then ['-'] else []) ++ text := by
  rw [signed, String.toList_ofList]
  cases negative with
  | false => rfl
  | true => rfl

def textWith (decimalOf : Nat → Nat × Int) : Binary64 → String
  | nan => "nan"
  | infinite negative => signed negative ['i', 'n', 'f']
  | finite negative magnitude =>
    let (significand, exponent) := decimalOf magnitude.units
    signed negative (decimalText layout significand exponent)

theorem text_eq_textWith : text = textWith shortestDecimal := rfl

theorem textWith_finite (decimalOf : Nat → Nat × Int) :
    textWith decimalOf (finite negative magnitude) =
      signed negative (decimalText layout (decimalOf magnitude.units).1
        (decimalOf magnitude.units).2) :=
  rfl

-- The way to the decimal is a variable first, so that the shortest one is not searched for here.
theorem text_finite : (finite negative magnitude).text =
    signed negative (decimalText layout (shortestDecimal magnitude.units).1
      (shortestDecimal magnitude.units).2) := by
  rw [text_eq_textWith, textWith_finite]

theorem sign_ite (negative : Bool) : Sign (if negative then ['-'] else []) negative := by
  cases negative with
  | false => exact .absent
  | true => exact .minus

theorem printed_cases (number : value ≠ .nan) :
    (∃ negative, value = infinite negative ∧
      value.printed.toList = (if negative then ['-'] else []) ++ ['i', 'n', 'f']) ∨
    ∃ (negative : Bool) (text : List Char),
      value.printed.toList = (if negative then ['-'] else []) ++ text ∧
        decimal? negative text = some value.unsignedZero := by
  cases value with
  | nan => exact absurd rfl number
  | infinite negative => exact .inl ⟨negative, rfl, toList_signed negative _⟩
  | finite negative magnitude =>
    right
    cases found : (finite negative magnitude).integral? with
    | some whole =>
      refine ⟨decide (whole < 0), _, ?_, decimal?_of_integral? found⟩
      rw [printed, found]
      simpa using toList_toString whole
    | none =>
      refine ⟨negative, _, ?_, decimal?_of_not_integral? found⟩
      rw [printed, found]
      dsimp only
      rw [text_finite, toList_signed]

theorem unsignedZero_infinite : (infinite negative).unsignedZero = infinite negative := by
  have positive : 0 < unitLimit := Nat.two_pow_pos limitExponent
  have apart : (infinite negative).isZero = false := by
    unfold isZero position?
    generalize unitLimit = limit at *
    cases negative with
    | false => simp; omega
    | true => simp; omega
  rw [unsignedZero, apart, if_neg Bool.false_ne_true]

theorem real?_printed (number : value ≠ .nan) :
    real? value.printed.toList = some value.unsignedZero := by
  rcases printed_cases number with ⟨negative, rfl, shown⟩ | ⟨negative, text, shown, read⟩
  · rw [shown, unsignedZero_infinite]
    cases negative with
    | false => rfl
    | true => rfl
  · rw [shown]
    exact real?_of_decimal? (sign_ite negative) read

theorem solid_printed (number : value ≠ .nan) : Solid value.printed.toList := by
  rcases printed_cases number with ⟨negative, rfl, shown⟩ | ⟨negative, text, shown, read⟩
  · rw [shown, solid_append]
    exact ⟨(sign_ite negative).spelled.solid, solid_of_all (by decide)⟩
  · have plain := (of_decimal? (Option.isSome_of_eq_some read)).1
    rw [shown, solid_append]
    exact ⟨(sign_ite negative).spelled.solid, (spelled_of_isPlain plain).solid⟩

theorem take_ofText_line {line : String} (solid : Solid line.toList) (present : line.toList ≠ [])
    (rest : String) : (Input.ofText (line ++ "\n" ++ rest)).take.1 = some line.toList := by
  have alone : words line.toList = [line.toList] := by
    rw [words, segments_eq_singleton solid present]
    simp [present]
  have feed : isBlank '\n' = true := by decide
  have characters : (line ++ "\n" ++ rest).toList = line.toList ++ '\n' :: rest.toList := by
    rw [String.toList_append, String.toList_append, List.append_assoc]
    rfl
  have remaining : (Input.ofText (line ++ "\n" ++ rest)).remaining =
      line.toList :: words rest.toList := by
    have all := flatMap_words_inputLines (line ++ "\n" ++ rest).toList
    rw [characters, words_append_cons _ _ feed, alone, ← characters] at all
    exact all
  rw [(Input.ofText _).take_spec.1, remaining, List.head?_cons]

theorem exists_mark_printed (number : value ≠ .nan) (fractional : value.integral? = none) :
    ∃ c ∈ value.printed.toList, isAsciiDigit c = false ∧ c ≠ '-' := by
  rw [printed, fractional]
  dsimp only
  cases value with
  | nan => exact absurd rfl number
  | infinite negative =>
    refine ⟨'i', ?_, by decide⟩
    rw [text_eq_textWith, textWith, toList_signed]
    simp
  | finite negative magnitude =>
    obtain ⟨c, found, mark⟩ := exists_mark_decimalText layout (shortestDecimal magnitude.units).1
      (shortestDecimal magnitude.units).2
    refine ⟨c, ?_, mark⟩
    rw [text_finite, toList_signed]
    exact List.mem_append_right _ found

theorem isSignedDigits_toString (whole : Int) : IsSignedDigits (toString whole).toList := by
  refine ⟨_, _, toList_toString whole, ?_, Nat.toDigits_ne_nil, all_isAsciiDigit_toDigits _⟩
  split
  · exact .inr rfl
  · exact .inl rfl

theorem not_isSignedDigits {text : List Char} {c : Char} (found : c ∈ text)
    (mark : isAsciiDigit c = false ∧ c ≠ '-') : ¬ IsSignedDigits text := by
  rintro ⟨sign, digits, rfl, signs, _, all⟩
  rcases List.mem_append.mp found with front | back
  · rcases signs with rfl | rfl
    · cases front
    · exact mark.2 (List.mem_singleton.mp front)
  · have digit := List.all_eq_true.mp all c back
    rw [mark.1] at digit
    cases digit

/-- For all numbers but the one that is none, the infinite ones included: the printed text is read as the
number, by itself and by a machine that finds it on a line of its own, and both zeros as zero. It is an
optional minus and digits if and only if the exact value is an integer, and then it is that integer. -/
theorem printed_reads_back (number : value ≠ .nan) :
    real? value.printed.toList = some value.unsignedZero ∧
    (∀ (machine : Machine) (rest : String), machine.input = .ofText (value.printed ++ "\n" ++ rest) →
      machine.readNumber = .ok value.unsignedZero { machine with input := machine.input.take.2 }) ∧
    (IsSignedDigits value.printed.toList ↔ ∃ whole : Int, value.toRat? = some (whole : ℚ)) ∧
    ∀ whole : Int, value.toRat? = some (whole : ℚ) → value.printed = toString whole := by
  have read := real?_printed number
  have present : value.printed.toList ≠ [] := ne_nil_of_real? (Option.isSome_of_eq_some read)
  have digits : ∀ whole : Int, value.toRat? = some (whole : ℚ) → value.printed = toString whole := by
    intro whole exactly
    rw [printed, integral?_eq_some_iff.mpr exactly]
  refine ⟨read, ?_, ?_, digits⟩
  · intro machine rest input
    have taken := take_ofText_line (solid_printed number) present rest
    rw [← input] at taken
    rw [Machine.readNumber_eq, taken, Machine.numberOf, read]
  · constructor
    · intro signed
      cases fractional : value.integral? with
      | some whole => exact ⟨whole, integral?_eq_some_iff.mp fractional⟩
      | none =>
        obtain ⟨c, found, mark⟩ := exists_mark_printed number fractional
        exact absurd signed (not_isSignedDigits found mark)
    · rintro ⟨whole, exactly⟩
      rw [digits whole exactly]
      exact isSignedDigits_toString whole

/-- The least number above zero, which is printed with an exponent. -/
theorem printed_reads_back_least :
    ofBits 1 ≠ .nan ∧ (ofBits 1).printed = "5e-324" ∧ real? "5e-324".toList = some (ofBits 1) ∧
      ¬ ∃ whole : Int, (ofBits 1).toRat? = some (whole : ℚ) := by
  have number : ofBits 1 ≠ .nan := by decide +kernel
  have shown : (ofBits 1).printed = "5e-324" := by decide +kernel
  have kept : (ofBits 1).unsignedZero = ofBits 1 := by decide +kernel
  have mark : isAsciiDigit 'e' = false ∧ 'e' ≠ '-' := by decide
  obtain ⟨read, _, digits, _⟩ := printed_reads_back number
  rw [shown, kept] at read
  rw [shown] at digits
  refine ⟨number, shown, read, ?_⟩
  intro integral
  exact not_isSignedDigits (by decide) mark (digits.mpr integral)

end Pascalet.Binary64
