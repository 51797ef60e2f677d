import Pascalet.Proofs.Numeral.Grammar

namespace Pascalet.Numeral

open Text

variable {text : List Char}

theorem isPlain_of_all {digits : List Char} (all : digits.all isAsciiDigit = true) :
    ∀ c ∈ digits, IsPlain c :=
  fun c found => .inl (List.all_eq_true.mp all c found)

theorem isPlain_of_splitSign (plain : ∀ c ∈ (splitSign text).2, IsPlain c) :
    ∀ c ∈ text, IsPlain c := by
  unfold splitSign at plain
  split at plain
  next => exact List.forall_mem_cons.mpr ⟨.inr isMark_minus, plain⟩
  next => exact List.forall_mem_cons.mpr ⟨.inr isMark_plus, plain⟩
  next => exact plain

theorem isPlain_of_exponent? (accepted : (exponent? text).isSome = true) :
    ∀ c ∈ text, IsPlain c := by
  cases text with
  | nil => exact nofun
  | cons letter rest =>
    simp only [exponent?] at accepted
    split at accepted
    next parts =>
      simp only [Bool.and_eq_true, Bool.or_eq_true, beq_iff_eq] at parts
      obtain ⟨⟨known, _⟩, all⟩ := parts
      exact List.forall_mem_cons.mpr
        ⟨.inr (isMark_of_letter known), isPlain_of_splitSign (isPlain_of_all all)⟩
    next => cases accepted

theorem of_decimal? {negative : Bool} (accepted : (decimal? negative text).isSome = true) :
    (∀ c ∈ text, IsPlain c) ∧ (∃ c ∈ text, isAsciiDigit c = true) ∧
      ∀ c ∈ text.head?, c ≠ '-' ∧ c ≠ '+' := by
  have digitOf {digits : List Char} (all : digits.all isAsciiDigit = true) (present : digits ≠ []) :
      ∃ c ∈ digits, isAsciiDigit c = true := by
    obtain ⟨c, rest, rfl⟩ := List.exists_cons_of_ne_nil present
    exact ⟨c, List.mem_cons_self, List.all_eq_true.mp all c List.mem_cons_self⟩
  rcases decimal?_cases accepted with
    ⟨whole, rest, rfl, all, present, exponent⟩ |
    ⟨whole, fraction, rest, rfl, all, allOthers, present, exponent⟩
  · refine ⟨?_, ?_, (isPlainMantissa_whole all present).unsigned rest⟩
    · exact List.forall_mem_append.mpr ⟨isPlain_of_all all, isPlain_of_exponent? exponent⟩
    · obtain ⟨c, found, digit⟩ := digitOf all present
      exact ⟨c, List.mem_append_left _ found, digit⟩
  · refine ⟨?_, ?_, ?_⟩
    · have behind := List.forall_mem_append.mpr
        ⟨isPlain_of_all allOthers, isPlain_of_exponent? exponent⟩
      exact List.forall_mem_append.mpr
        ⟨isPlain_of_all all, List.forall_mem_cons.mpr ⟨.inr isMark_point, behind⟩⟩
    · rcases present with front | back
      · obtain ⟨c, found, digit⟩ := digitOf all front
        exact ⟨c, List.mem_append_left _ found, digit⟩
      · obtain ⟨c, found, digit⟩ := digitOf allOthers back
        have inside : c ∈ '.' :: (fraction ++ rest) :=
          List.mem_cons_of_mem _ (List.mem_append_left _ found)
        exact ⟨c, List.mem_append_right _ inside, digit⟩
    · have unsigned := (isPlainMantissa_point all allOthers present).unsigned rest
      rwa [List.append_assoc, List.cons_append] at unsigned

theorem real?_of_decimal? {sign : List Char} {negative : Bool} {value : Binary64}
    (signed : Sign sign negative) (read : decimal? negative text = some value) :
    real? (sign ++ text) = some value := by
  obtain ⟨plain, ⟨digit, found, isDigit⟩, unsigned⟩ := of_decimal? (Option.isSome_of_eq_some read)
  have noName : String.ofList (text.map Char.toLower) ∉ ["inf", "infinity", "nan"] := by
    intro known
    have noDigit := (isMark_of_name known digit found).noDigit
    rw [isDigit] at noDigit
    cases noDigit
  rw [Numeral.real?, (signed.spelled.append (spelled_of_isPlain plain)).plain?]
  simp only [Option.bind_eq_bind, Option.bind_some, signed.splitSign unsigned]
  split
  next same => exact absurd (by simp [same]) noName
  next same => exact absurd (by simp [same]) noName
  next same => exact absurd (by simp [same]) noName
  next => exact read

end Pascalet.Numeral
