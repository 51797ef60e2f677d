import Pascalet.Proofs.Numeral.Decimal

namespace Pascalet.Numeral

open Text

theorem isBlank_of_isAsciiDigit {c : Char} (digit : isAsciiDigit c = true) : isBlank c = false := by
  have bounds := toNat_of_isAsciiDigit digit
  apply isBlank_of_isInk
  rw [isInk_iff]
  omega

theorem solid_of_digits {digits : List Char} (all : digits.all isAsciiDigit = true) : Solid digits :=
  fun c found => isBlank_of_isAsciiDigit (List.all_eq_true.mp all c found)

theorem solid_of_splitSign {text : List Char} (solid : Solid (splitSign text).2) : Solid text := by
  have minus : isBlank '-' = false := by decide
  have plus : isBlank '+' = false := by decide
  unfold splitSign at solid
  split at solid
  · exact solid_cons.mpr ⟨minus, solid⟩
  · exact solid_cons.mpr ⟨plus, solid⟩
  · exact solid

theorem solid_of_exponent? {text : List Char} (accepted : (exponent? text).isSome = true) :
    Solid text := by
  cases text with
  | nil => exact solid_nil
  | cons mark rest =>
    simp only [exponent?] at accepted
    split at accepted
    next parts =>
      simp only [Bool.and_eq_true, Bool.or_eq_true, beq_iff_eq] at parts
      obtain ⟨⟨letter, _⟩, digits⟩ := parts
      have behind : Solid rest := solid_of_splitSign (solid_of_digits digits)
      rcases letter with rfl | rfl
      · exact solid_cons.mpr ⟨by decide, behind⟩
      · exact solid_cons.mpr ⟨by decide, behind⟩
    next => cases accepted

theorem solid_of_decimal? {negative : Bool} {text : List Char}
    (accepted : (decimal? negative text).isSome = true) : Solid text := by
  have whole : Solid (text.takeWhile isAsciiDigit) := solid_of_digits List.all_takeWhile
  have point : isBlank '.' = false := by decide
  suffices rest : Solid (text.dropWhile isAsciiDigit) by
    rw [← @List.takeWhile_append_dropWhile _ isAsciiDigit text]
    exact solid_append.mpr ⟨whole, rest⟩
  simp only [decimal?] at accepted
  split at accepted
  next rest found =>
    split at accepted
    · cases accepted
    · rw [Option.isSome_map] at accepted
      rw [found, solid_cons, ← @List.takeWhile_append_dropWhile _ isAsciiDigit rest]
      exact ⟨point, solid_append.mpr
        ⟨solid_of_digits List.all_takeWhile, solid_of_exponent? accepted⟩⟩
  next =>
    split at accepted
    · cases accepted
    · rw [Option.isSome_map] at accepted
      exact solid_of_exponent? accepted

theorem isBlank_of_toLower {c : Char} (clear : isBlank c.toLower = false) : isBlank c = false := by
  unfold Char.toLower at clear
  split at clear
  next upper =>
    apply isBlank_of_isInk
    rw [isInk_iff]
    have bounds : 65 ≤ c.toNat ∧ c.toNat ≤ 90 := upper
    omega
  next => exact clear

theorem solid_of_toLower {text : List Char} {word : String}
    (same : String.ofList (text.map Char.toLower) = word) (solid : Solid word.toList) :
    Solid text := by
  intro c found
  apply isBlank_of_toLower
  apply solid
  rw [← same, String.toList_ofList]
  exact List.mem_map_of_mem found

theorem solid_of_joinDigits? {previous : Option Char} {text joined : List Char}
    (done : joinDigits? previous text = some joined) (solid : Solid joined) : Solid text := by
  have underscore : isBlank '_' = false := by decide
  fun_induction joinDigits? previous text generalizing joined with
  | case1 => exact solid_nil
  | case2 previous rest between ih => exact solid_cons.mpr ⟨underscore, ih done solid⟩
  | case3 => cases done
  | case4 previous c rest other ih =>
    obtain ⟨tail, joinedTail, rfl⟩ := Option.map_eq_some_iff.mp done
    rw [solid_cons] at solid ⊢
    exact ⟨solid.1, ih joinedTail solid.2⟩

theorem isBlank_of_narrow? {c narrowed : Char} (done : narrow? c = some narrowed)
    (clear : isBlank narrowed = false) : isBlank c = false := by
  unfold narrow? at done
  split at done
  · cases done
    exact clear
  · split at done
    next => exact absurd clear (by cases done; decide)
    next other => exact Bool.eq_false_iff.mpr other

theorem isMargin_of_narrow? {c narrowed : Char} (done : narrow? c = some narrowed)
    (clear : isBlank c = false) : isMargin narrowed = false := by
  rw [Bool.eq_false_iff]
  intro margin
  have bounds : narrowed.toNat = 32 ∨ 9 ≤ narrowed.toNat ∧ narrowed.toNat ≤ 13 := by
    simp only [isMargin, Bool.or_eq_true, beq_iff_eq, Bool.and_eq_true, decide_eq_true_eq] at margin
    rcases margin with rfl | inside
    · exact .inl rfl
    · exact .inr inside
  unfold narrow? at done
  split at done
  · cases done
    have blank : isBlank c = true := by
      apply inRanges_iff.mpr
      rcases bounds with space | control
      · exact ⟨(0x1C, 0x20), by decide, by dsimp; omega⟩
      · exact ⟨(0x9, 0xD), by decide, control⟩
    rw [clear] at blank
    cases blank
  · rw [clear, if_neg Bool.false_ne_true] at done
    obtain ⟨value, found, rfl⟩ := Option.map_eq_some_iff.mp done
    have small := digitValue?_lt found
    have valid : ('0'.toNat + value).isValidChar := by
      left
      change 48 + value < _
      omega
    have shown : (Char.ofNat ('0'.toNat + value)).toNat = 48 + value := by
      rw [Char.ofNat, dif_pos valid]
      rfl
    omega

theorem eq_map_of_narrow? {text narrowed : List Char} (done : text.mapM narrow? = some narrowed) :
    ∃ form : Char → Char, narrowed = text.map form ∧ ∀ c ∈ text, narrow? c = some (form c) := by
  refine ⟨fun c => (narrow? c).getD c, ?_⟩
  induction text generalizing narrowed with
  | nil =>
    cases done
    simp
  | cons c rest ih =>
    rw [List.mapM_cons] at done
    cases first : narrow? c with
    | none => simp [first] at done
    | some other =>
      cases others : rest.mapM narrow? with
      | none => simp [first, others] at done
      | some tail =>
        obtain ⟨rfl, kept⟩ := ih others
        simp only [first, others, Option.bind_eq_bind, Option.bind_some, Option.pure_def,
          Option.some.injEq] at done
        subst done
        simpa [first] using kept

theorem trimMargin_eq_self_of_ends {text : List Char} (first : ∀ c ∈ text.head?, isMargin c = false)
    (last : ∀ c ∈ text.getLast?, isMargin c = false) : trimMargin text = text := by
  have front : text.dropWhile isMargin = text := by
    cases text with
    | nil => rfl
    | cons c rest => simp [first c rfl]
  have back : text.reverse.dropWhile isMargin = text.reverse := by
    rw [List.getLast?_eq_head?_reverse] at last
    cases reversed : text.reverse with
    | nil => rfl
    | cons c rest => simp [last c (by rw [reversed]; rfl)]
  rw [trimMargin, front, back, List.reverse_reverse]

theorem solid_of_plain? {text plain : List Char} (trimmed : trim text = text)
    (done : plain? text = some plain) (solid : Solid plain) : Solid text := by
  unfold plain? at done
  cases narrowing : text.mapM narrow? with
  | none => simp [narrowing] at done
  | some narrowed =>
    simp only [narrowing, Option.bind_eq_bind, Option.bind_some] at done
    obtain ⟨form, rfl, kept⟩ := eq_map_of_narrow? narrowing
    have ends {c : Char} (member : c ∈ text) (clear : isBlank c = false) :
        isMargin (form c) = false := isMargin_of_narrow? (kept c member) clear
    have first : ∀ c ∈ (text.map form).head?, isMargin c = false := by
      intro c found
      rw [List.head?_map] at found
      obtain ⟨original, here, rfl⟩ := Option.map_eq_some_iff.mp found
      exact ends (List.mem_of_mem_head? here) (isBlank_head_trim original (trimmed ▸ here))
    have last : ∀ c ∈ (text.map form).getLast?, isMargin c = false := by
      intro c found
      rw [List.getLast?_map] at found
      obtain ⟨original, here, rfl⟩ := Option.map_eq_some_iff.mp found
      exact ends (List.mem_of_getLast? here) (isBlank_getLast_trim original (trimmed ▸ here))
    rw [trimMargin_eq_self_of_ends first last] at done
    have narrowSolid : Solid (text.map form) := solid_of_joinDigits? done solid
    intro c member
    exact isBlank_of_narrow? (kept c member) (narrowSolid _ (List.mem_map_of_mem member))

theorem solid_of_real? {text : List Char} (trimmed : trim text = text)
    (accepted : (real? text).isSome = true) : Solid text := by
  unfold real? at accepted
  cases done : plain? text with
  | none => simp [done] at accepted
  | some plain =>
    simp only [done, Option.bind_eq_bind, Option.bind_some] at accepted
    apply solid_of_plain? trimmed done
    apply solid_of_splitSign
    split at accepted
    next same => exact solid_of_toLower same (solid_of_all (by decide))
    next same => exact solid_of_toLower same (solid_of_all (by decide))
    next same => exact solid_of_toLower same (solid_of_all (by decide))
    next => exact solid_of_decimal? accepted

theorem ne_nil_of_real? {text : List Char} (accepted : (real? text).isSome = true) : text ≠ [] := by
  rintro rfl
  exact absurd accepted (by decide)

theorem digitsValue_append (digits : List Char) (c : Char) :
    digitsValue (digits ++ [c]) = digitsValue digits * 10 + (c.toNat - '0'.toNat) := by
  simp [digitsValue]

theorem digitsValue_lt {digits : List Char} (all : digits.all isAsciiDigit = true) :
    digitsValue digits < 10 ^ digits.length := by
  -- Digits are read from the left, so the induction is on the digits in reverse.
  generalize reversed : digits.reverse = backwards
  induction backwards generalizing digits with
  | nil =>
    rw [List.reverse_eq_nil_iff.mp reversed]
    decide
  | cons c rest ih =>
    rw [List.reverse_eq_cons_iff] at reversed
    subst reversed
    simp only [List.all_append, List.all_cons, List.all_nil, Bool.and_true, Bool.and_eq_true] at all
    have smaller := ih all.1 (List.reverse_reverse rest)
    have bounds := toNat_of_isAsciiDigit all.2
    have zero : '0'.toNat = 48 := rfl
    rw [digitsValue_append, List.length_append, List.length_singleton, zero, Nat.pow_succ]
    omega

-- The limit is a variable here so that no power of ten is ever computed.
theorem digitsValue_lt_of_le {digits : List Char} {limit : Nat}
    (all : digits.all isAsciiDigit = true) (short : digits.length ≤ limit) :
    digitsValue digits < 10 ^ limit :=
  Nat.lt_of_lt_of_le (digitsValue_lt all) (Nat.pow_le_pow_right (by decide) short)

theorem isWritable_of_integer? {text : List Char} {value : Int}
    (read : integer? text = some value) : isWritable value = true := by
  unfold integer? at read
  cases done : plain? text with
  | none => simp [done] at read
  | some plain =>
    simp only [done, Option.bind_eq_bind, Option.bind_some] at read
    split at read
    · cases read
    next parts =>
      simp only [Bool.or_eq_true, not_or, Bool.not_eq_true', decide_eq_true_eq, Nat.not_lt] at parts
      have bounded := digitsValue_lt_of_le (by simpa using parts.1.2) parts.2
      have size : value.natAbs = digitsValue (splitSign plain).2 := by
        cases read
        split <;> simp
      rw [isWritable, size]
      exact decide_eq_true bounded

theorem all_isAsciiDigit_toDigits (value : Nat) :
    (Nat.toDigits 10 value).all isAsciiDigit = true := by
  rw [List.all_eq_true]
  intro c found
  have digit := Nat.isDigit_of_mem_toDigits (by decide) (by decide) found
  simpa [Char.isDigit, isAsciiDigit, Char.le_def] using digit

theorem digitsValue_toDigits (value : Nat) : digitsValue (Nat.toDigits 10 value) = value := by
  have step : (fun (total : Nat) (c : Char) => total * 10 + (c.toNat - '0'.toNat)) =
      fun total c => 10 * total + (c.toNat - '0'.toNat) := by
    funext total c
    rw [Nat.mul_comm]
  have read := @Nat.ofDigitChars_ten_toDigits value
  rw [Nat.ofDigitChars_eq_foldl] at read
  rw [digitsValue, step, read]

-- As above, the limit is a variable.
theorem length_toDigits_le {value limit : Nat} (positive : 0 < limit)
    (small : value < 10 ^ limit) : (Nat.toDigits 10 value).length ≤ limit :=
  (Nat.length_toDigits_le_iff (by decide) positive).mpr small

theorem isDecimal_toDigits (value : Nat) : IsDecimal (Nat.toDigits 10 value) :=
  .whole Nat.toDigits_ne_nil (all_isAsciiDigit_toDigits value)

theorem toList_toString (value : Int) :
    (toString value).toList = (if value < 0 then ['-'] else []) ++ Nat.toDigits 10 value.natAbs := by
  cases value with
  | ofNat value =>
    have natural : ¬ Int.ofNat value < 0 := by simp
    rw [if_neg natural]
    exact Nat.toList_repr
  | negSucc value =>
    have negative : Int.negSucc value < 0 := Int.negSucc_lt_zero value
    have shown : toString (Int.negSucc value) = "-" ++ (value + 1).repr := rfl
    rw [if_pos negative, shown, String.toList_append, Nat.toList_repr]
    rfl

theorem ink_toString (value : Int) : ∀ c ∈ (toString value).toList, isInk c = true := by
  have digits := (isDecimal_toDigits value.natAbs).ink
  have minus : isInk '-' = true := by decide
  rw [toList_toString]
  split
  · simpa [minus] using digits
  · exact digits

theorem splitSign_toString (value : Int) :
    splitSign (toString value).toList = (decide (value < 0), Nat.toDigits 10 value.natAbs) := by
  rw [toList_toString]
  by_cases negative : value < 0
  · simp [negative, splitSign]
  · obtain ⟨c, rest, split, digit⟩ := (isDecimal_toDigits value.natAbs).head
    have unsigned := @splitSign_eq_self c rest digit
    simpa [negative, split] using unsigned

theorem integer?_toString {value : Int} (writable : isWritable value = true) :
    integer? (toString value).toList = some value := by
  have short : (Nat.toDigits 10 value.natAbs).length ≤ integerDigitLimit :=
    length_toDigits_le (by decide) (of_decide_eq_true writable)
  have accepted : ((Nat.toDigits 10 value.natAbs).isEmpty ||
      !(Nat.toDigits 10 value.natAbs).all isAsciiDigit ||
      decide (integerDigitLimit < (Nat.toDigits 10 value.natAbs).length)) = false := by
    rw [all_isAsciiDigit_toDigits, decide_eq_false (Nat.not_lt.mpr short)]
    simp [Nat.toDigits_ne_nil]
  have noUnderscore : ∀ c ∈ (toString value).toList, c ≠ '_' := by
    rw [toList_toString]
    intro c found
    rcases List.mem_append.mp found with sign | digit
    · split at sign
      · rw [List.mem_singleton.mp sign]
        decide
      · cases sign
    · exact (isDecimal_toDigits value.natAbs).noUnderscore c digit
  have plain := plain?_eq_self (ink_toString value) noUnderscore
  have signed : (if value < 0 then -(value.natAbs : Int) else value.natAbs) = value := by
    split <;> omega
  rw [integer?, plain]
  simp only [Option.bind_eq_bind, Option.bind_some, splitSign_toString, digitsValue_toDigits,
    accepted, Bool.false_eq_true, ↓reduceIte, decide_eq_true_eq, signed]

theorem toString_ne_nil (value : Int) : (toString value).toList ≠ [] := by
  rw [toList_toString]
  simp [Nat.toDigits_ne_nil]

end Pascalet.Numeral
