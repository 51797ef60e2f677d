import Mathlib.Data.List.Basic
import Pascalet.Proofs.Numeral.Spelling

namespace Pascalet.Numeral

open Text

/-- An optional sign. The flag says whether it is a minus. -/
inductive Sign : (text : List Char) → (negative : Bool) → Prop where
  | absent : Sign [] false
  | plus : Sign ['+'] false
  | minus : Sign ['-'] true

def valueOf (values : List Nat) : Nat :=
  values.foldl (fun total value => 10 * total + value) 0

inductive IsInteger : (text : List Char) → (value : Int) → Prop where
  | intro {sign digits : List Char} {negative : Bool} {values : List Nat} (signed : Sign sign negative)
    (part : DigitPart digits values) (short : values.length ≤ integerDigitLimit) :
    IsInteger (sign ++ digits) (if negative then -(valueOf values : Int) else valueOf values)

/-- Digits with an optional point among them or at one of their ends. -/
inductive Mantissa : List Char → Prop where
  | whole {digits : List Char} {values : List Nat} (part : DigitPart digits values) : Mantissa digits
  | pointLast {digits : List Char} {values : List Nat} (part : DigitPart digits values) :
    Mantissa (digits ++ ['.'])
  | pointFirst {digits : List Char} {values : List Nat} (part : DigitPart digits values) :
    Mantissa ('.' :: digits)
  | point {digits others : List Char} {values behind : List Nat} (part : DigitPart digits values)
    (fraction : DigitPart others behind) : Mantissa (digits ++ '.' :: others)

inductive Exponent : List Char → Prop where
  | absent : Exponent []
  | present {letter : Char} {sign digits : List Char} {negative : Bool} {values : List Nat}
    (known : letter = 'e' ∨ letter = 'E') (signed : Sign sign negative)
    (part : DigitPart digits values) : Exponent (letter :: (sign ++ digits))

inductive IsReal : List Char → Prop where
  | named {sign name : List Char} {negative : Bool} (signed : Sign sign negative)
    (known : String.ofList (name.map Char.toLower) ∈ ["inf", "infinity", "nan"]) :
    IsReal (sign ++ name)
  | decimal {sign mantissa exponent : List Char} {negative : Bool} (signed : Sign sign negative)
    (front : Mantissa mantissa) (back : Exponent exponent) : IsReal (sign ++ (mantissa ++ exponent))

section Signs

variable {sign text plain : List Char} {negative : Bool}

theorem isMark_minus : IsMark '-' := ⟨by decide, by decide, by decide, by decide⟩

theorem isMark_plus : IsMark '+' := ⟨by decide, by decide, by decide, by decide⟩

theorem isMark_point : IsMark '.' := ⟨by decide, by decide, by decide, by decide⟩

theorem Sign.spelled (signed : Sign sign negative) : Spelled sign sign := by
  cases signed with
  | absent => exact .nothing
  | plus => exact .mark isMark_plus .nothing
  | minus => exact .mark isMark_minus .nothing

theorem Sign.splitSign (signed : Sign sign negative)
    (unsigned : ∀ c ∈ plain.head?, c ≠ '-' ∧ c ≠ '+') :
    Numeral.splitSign (sign ++ plain) = (negative, plain) := by
  cases signed with
  | absent =>
    rw [List.nil_append]
    unfold Numeral.splitSign
    split
    · exact absurd rfl (unsigned '-' rfl).1
    · exact absurd rfl (unsigned '+' rfl).2
    · rfl
  | plus => rfl
  | minus => rfl

theorem Spelled.exists_sign (spelled : Spelled text plain) :
    ∃ sign rest, text = sign ++ rest ∧ Sign sign (splitSign plain).1 ∧
      Spelled rest (splitSign plain).2 := by
  unfold Numeral.splitSign
  split
  next rest =>
    obtain ⟨back, rfl, behind⟩ := spelled.behind isMark_minus.noDigit
    exact ⟨['-'], back, rfl, .minus, behind⟩
  next rest =>
    obtain ⟨back, rfl, behind⟩ := spelled.behind isMark_plus.noDigit
    exact ⟨['+'], back, rfl, .plus, behind⟩
  next => exact ⟨[], text, rfl, .absent, spelled⟩

theorem unsigned_of_all {digits : List Char} (all : digits.all isAsciiDigit = true) :
    ∀ c ∈ digits.head?, c ≠ '-' ∧ c ≠ '+' := by
  intro c first
  have digit := List.all_eq_true.mp all c (List.mem_of_mem_head? first)
  refine ⟨?_, ?_⟩
  · rintro rfl
    exact absurd digit (by decide)
  · rintro rfl
    exact absurd digit (by decide)

end Signs

section Integers

variable {text : List Char} {value : Int}

theorem digitsValue_map_digitChar {values : List Nat} (small : ∀ value ∈ values, value < 10) :
    digitsValue (values.map Nat.digitChar) = valueOf values := by
  rw [digitsValue, valueOf, List.foldl_map]
  apply List.foldl_ext
  intro total value found
  have zero : '0'.toNat = 48 := rfl
  rw [Nat.toNat_digitChar_of_lt_ten (small value found), zero]
  omega

theorem IsInteger.solid (numeral : IsInteger text value) : Solid text := by
  obtain ⟨signed, part, _⟩ := numeral
  exact solid_append.mpr ⟨signed.spelled.solid, part.solid⟩

theorem IsInteger.integer? (numeral : IsInteger text value) : Numeral.integer? text = some value := by
  obtain ⟨signed, part, short⟩ := numeral
  have all := part.all_isAsciiDigit
  have split := signed.splitSign (unsigned_of_all all)
  rw [Numeral.integer?, (signed.spelled.append part.spelled).plain?]
  simp only [Option.bind_eq_bind, Option.bind_some, split, all, List.isEmpty_map, List.length_map,
    digitsValue_map_digitChar part.small]
  rw [if_neg]
  simpa [part.ne_nil] using short

theorem isInteger_of_integer? (trimmed : trim text = text) (read : integer? text = some value) :
    IsInteger text value := by
  unfold Numeral.integer? at read
  cases done : plain? text with
  | none => simp [done] at read
  | some plain =>
    simp only [done, Option.bind_eq_bind, Option.bind_some] at read
    split at read
    · cases read
    next parts =>
      simp only [Bool.or_eq_true, not_or, Bool.not_eq_true', Bool.not_eq_false, decide_eq_true_eq,
        Nat.not_lt, List.isEmpty_iff] at parts
      obtain ⟨⟨present, all⟩, short⟩ := parts
      have solid := solid_of_plain? trimmed done (solid_of_splitSign (solid_of_digits all))
      obtain ⟨sign, rest, rfl, signed, spelled⟩ := (spelled_of_plain? solid done).exists_sign
      obtain ⟨values, part, same⟩ := spelled.exists_part all present
      rw [same, List.length_map] at short
      rw [same, digitsValue_map_digitChar part.small] at read
      cases read
      exact .intro signed part short

end Integers

section Exponents

variable {text plain : List Char}

theorem isMark_of_letter {letter : Char} (known : letter = 'e' ∨ letter = 'E') : IsMark letter := by
  rcases known with rfl | rfl
  · exact ⟨by decide, by decide, by decide, by decide⟩
  · exact ⟨by decide, by decide, by decide, by decide⟩

theorem Exponent.exists_plain (exponent : Exponent text) :
    ∃ plain, Spelled text plain ∧ (exponent? plain).isSome = true ∧
      ∀ c ∈ plain.head?, isAsciiDigit c = false ∧ c ≠ '.' := by
  cases exponent with
  | absent => exact ⟨[], .nothing, rfl, nofun⟩
  | @present letter sign digits negative values known signed part =>
    have all := part.all_isAsciiDigit
    have split := signed.splitSign (unsigned_of_all all)
    have mark := isMark_of_letter known
    refine ⟨_, .mark mark (signed.spelled.append part.spelled), ?_, ?_⟩
    · have accepted : ((letter == 'e' || letter == 'E') && !(values.map Nat.digitChar).isEmpty &&
          (values.map Nat.digitChar).all isAsciiDigit) = true := by
        simp [known, part.ne_nil, all]
      simp only [exponent?, split, accepted, ↓reduceIte, Option.isSome_some]
    · rintro _ ⟨⟩
      refine ⟨mark.noDigit, ?_⟩
      rcases known with rfl | rfl <;> decide

theorem Spelled.exists_exponent {digits rest : List Char} (spelled : Spelled text (digits ++ rest))
    (accepted : (exponent? rest).isSome = true) :
    ∃ front back, text = front ++ back ∧ Spelled front digits ∧ Exponent back := by
  cases rest with
  | nil =>
    rw [List.append_nil] at spelled
    exact ⟨text, [], (List.append_nil text).symm, spelled, .absent⟩
  | cons letter rest =>
    simp only [exponent?] at accepted
    split at accepted
    next parts =>
      simp only [Bool.and_eq_true, Bool.or_eq_true, beq_iff_eq, Bool.not_eq_true',
        List.isEmpty_eq_false_iff] at parts
      obtain ⟨⟨known, present⟩, all⟩ := parts
      obtain ⟨front, back, rfl, spelledFront, spelledBack⟩ :=
        spelled.split rfl (isMark_of_letter known).noDigit
      obtain ⟨sign, others, rfl, signed, spelledOthers⟩ := spelledBack.exists_sign
      obtain ⟨values, part, _⟩ := spelledOthers.exists_part all present
      exact ⟨front, _, rfl, spelledFront, .present known signed part⟩
    next => cases accepted

end Exponents

section Decimals

variable {text whole fraction rest : List Char} {negative : Bool}

theorem decimal?_whole (all : whole.all isAsciiDigit = true) (present : whole ≠ [])
    (accepted : (exponent? rest).isSome = true)
    (ends : ∀ c ∈ rest.head?, isAsciiDigit c = false ∧ c ≠ '.') :
    (decimal? negative (whole ++ rest)).isSome = true := by
  rw [decimal?_append negative all present ends, Option.isSome_map]
  exact accepted

theorem decimal?_point (all : whole.all isAsciiDigit = true) (others : fraction.all isAsciiDigit = true)
    (present : whole ≠ [] ∨ fraction ≠ []) (accepted : (exponent? rest).isSome = true)
    (ends : ∀ c ∈ rest.head?, isAsciiDigit c = false) :
    (decimal? negative (whole ++ '.' :: (fraction ++ rest))).isSome = true := by
  rw [decimal?_append_point negative all others present ends, Option.isSome_map]
  exact accepted

theorem decimal?_cases (accepted : (decimal? negative text).isSome = true) :
    (∃ whole rest, text = whole ++ rest ∧ whole.all isAsciiDigit = true ∧ whole ≠ [] ∧
      (exponent? rest).isSome = true) ∨
    ∃ whole fraction rest, text = whole ++ '.' :: (fraction ++ rest) ∧
      whole.all isAsciiDigit = true ∧ fraction.all isAsciiDigit = true ∧
      (whole ≠ [] ∨ fraction ≠ []) ∧ (exponent? rest).isSome = true := by
  have whole := @List.takeWhile_append_dropWhile _ isAsciiDigit text
  have all : (text.takeWhile isAsciiDigit).all isAsciiDigit = true := List.all_takeWhile
  simp only [decimal?] at accepted
  split at accepted
  next rest point =>
    rw [point] at whole
    split at accepted
    · cases accepted
    next present =>
      rw [Option.isSome_map] at accepted
      rw [Bool.and_eq_true, not_and_or, List.isEmpty_iff, List.isEmpty_iff] at present
      refine .inr ⟨_, rest.takeWhile isAsciiDigit, rest.dropWhile isAsciiDigit, ?_, all,
        List.all_takeWhile, present, accepted⟩
      rw [List.takeWhile_append_dropWhile, whole]
  next =>
    split at accepted
    · cases accepted
    next present =>
      rw [Option.isSome_map] at accepted
      refine .inl ⟨_, _, whole.symm, all, ?_, accepted⟩
      simpa using present

end Decimals

section Mantissas

variable {text digits others whole fraction plain : List Char}

structure IsPlainMantissa (plain : List Char) : Prop where
  unsigned : ∀ rest, ∀ c ∈ (plain ++ rest).head?, c ≠ '-' ∧ c ≠ '+'
  accepted : ∀ negative rest, (exponent? rest).isSome = true →
    (∀ c ∈ rest.head?, isAsciiDigit c = false ∧ c ≠ '.') →
      (decimal? negative (plain ++ rest)).isSome = true

theorem isPlainMantissa_whole (all : whole.all isAsciiDigit = true) (present : whole ≠ []) :
    IsPlainMantissa whole where
  unsigned rest := by
    rw [List.head?_append_of_ne_nil _ present]
    exact unsigned_of_all all
  accepted _ _ := decimal?_whole all present

theorem isPlainMantissa_point (all : whole.all isAsciiDigit = true)
    (allOthers : fraction.all isAsciiDigit = true) (present : whole ≠ [] ∨ fraction ≠ []) :
    IsPlainMantissa (whole ++ '.' :: fraction) where
  unsigned rest := by
    cases whole with
    | nil =>
      rintro _ ⟨⟩
      decide
    | cons c others =>
      rintro _ ⟨⟩
      exact unsigned_of_all all c rfl
  accepted negative rest accepted ends := by
    rw [List.append_assoc, List.cons_append]
    exact decimal?_point all allOthers present accepted fun c first => (ends c first).1

theorem Mantissa.exists_plain (mantissa : Mantissa text) :
    ∃ plain, Spelled text plain ∧ IsPlainMantissa plain := by
  cases mantissa with
  | whole part =>
    exact ⟨_, part.spelled, isPlainMantissa_whole part.all_isAsciiDigit (by simp [part.ne_nil])⟩
  | pointLast part =>
    exact ⟨_, part.spelled.append (.mark isMark_point .nothing),
      isPlainMantissa_point part.all_isAsciiDigit rfl (.inl (by simp [part.ne_nil]))⟩
  | pointFirst part =>
    have noWhole : ([] : List Char).all isAsciiDigit = true := rfl
    exact ⟨_, .mark isMark_point part.spelled,
      isPlainMantissa_point noWhole part.all_isAsciiDigit (.inr (by simp [part.ne_nil]))⟩
  | point part fraction =>
    exact ⟨_, part.spelled.append (.mark isMark_point fraction.spelled),
      isPlainMantissa_point part.all_isAsciiDigit fraction.all_isAsciiDigit
        (.inl (by simp [part.ne_nil]))⟩

theorem mantissa_point (front : Spelled digits whole) (back : Spelled others fraction)
    (all : whole.all isAsciiDigit = true) (allOthers : fraction.all isAsciiDigit = true)
    (present : whole ≠ [] ∨ fraction ≠ []) : Mantissa (digits ++ '.' :: others) := by
  by_cases noWhole : whole = []
  · subst noWhole
    obtain ⟨values, part, _⟩ := back.exists_part allOthers (present.resolve_left (· rfl))
    rw [front.eq_nil]
    exact .pointFirst part
  · obtain ⟨values, part, _⟩ := front.exists_part all noWhole
    by_cases noFraction : fraction = []
    · subst noFraction
      rw [back.eq_nil]
      exact .pointLast part
    · obtain ⟨behind, partBehind, _⟩ := back.exists_part allOthers noFraction
      exact .point part partBehind

theorem Spelled.exists_mantissa {negative : Bool} (spelled : Spelled text plain)
    (accepted : (decimal? negative plain).isSome = true) :
    ∃ mantissa exponent, text = mantissa ++ exponent ∧ Mantissa mantissa ∧ Exponent exponent := by
  rcases decimal?_cases accepted with
    ⟨whole, rest, rfl, all, present, exponent⟩ |
    ⟨whole, fraction, rest, rfl, all, allOthers, present, exponent⟩
  · obtain ⟨front, back, rfl, spelledFront, isExponent⟩ := spelled.exists_exponent exponent
    obtain ⟨values, part, _⟩ := spelledFront.exists_part all present
    exact ⟨front, back, rfl, .whole part, isExponent⟩
  · obtain ⟨front, behind, rfl, spelledFront, spelledBehind⟩ :=
      spelled.split rfl isMark_point.noDigit
    obtain ⟨others, back, rfl, spelledOthers, isExponent⟩ := spelledBehind.exists_exponent exponent
    have mantissa := mantissa_point spelledFront spelledOthers all allOthers present
    refine ⟨front ++ '.' :: others, back, ?_, mantissa, isExponent⟩
    rw [List.append_assoc, List.cons_append]

end Mantissas

section Names

variable {name : List Char} {c : Char}

theorem isMark_of_toLower (mark : IsMark c.toLower) : IsMark c := by
  have clear := isBlank_of_toLower mark.noBlank
  unfold Char.toLower at mark
  split at mark
  next upper =>
    have bounds : 65 ≤ c.toNat ∧ c.toNat ≤ 90 := upper
    refine ⟨by omega, ?_, ?_, clear⟩
    · rw [Bool.eq_false_iff, Ne, isAsciiDigit_iff]
      omega
    · rintro rfl
      revert bounds
      decide
  next => exact mark

theorem mem_letters (known : String.ofList (name.map Char.toLower) ∈ ["inf", "infinity", "nan"]) :
    ∀ c ∈ name, c.toLower ∈ ['i', 'n', 'f', 't', 'y', 'a'] := by
  have letters : ["inf", "infinity", "nan"].all
      (fun word => word.toList.all (['i', 'n', 'f', 't', 'y', 'a'].contains ·)) = true := rfl
  have spelled := List.all_eq_true.mp (List.all_eq_true.mp letters _ known)
  intro c found
  apply List.contains_iff_mem.mp
  apply spelled
  rw [String.toList_ofList]
  exact List.mem_map_of_mem found

theorem isMark_of_name (known : String.ofList (name.map Char.toLower) ∈ ["inf", "infinity", "nan"]) :
    ∀ c ∈ name, IsMark c := by
  intro c found
  apply isMark_of_toLower
  have letter := mem_letters known c found
  simp only [List.mem_cons, List.not_mem_nil, or_false] at letter
  rcases letter with same | same | same | same | same | same <;>
    exact same ▸ ⟨by decide, by decide, by decide, by decide⟩

theorem spelled_of_name
    (known : String.ofList (name.map Char.toLower) ∈ ["inf", "infinity", "nan"]) :
    Spelled name name :=
  spelled_of_isPlain fun c found => .inr (isMark_of_name known c found)

theorem unsigned_of_name
    (known : String.ofList (name.map Char.toLower) ∈ ["inf", "infinity", "nan"]) :
    ∀ c ∈ name.head?, c ≠ '-' ∧ c ≠ '+' := by
  intro c first
  have letter := mem_letters known c (List.mem_of_mem_head? first)
  refine ⟨?_, ?_⟩
  · rintro rfl
    exact absurd letter (by decide)
  · rintro rfl
    exact absurd letter (by decide)

end Names

section Reals

variable {text : List Char}

theorem IsReal.solid (numeral : IsReal text) : Solid text := by
  cases numeral with
  | named signed known =>
    exact solid_append.mpr ⟨signed.spelled.solid, (spelled_of_name known).solid⟩
  | decimal signed front back =>
    obtain ⟨_, spelledFront, _⟩ := front.exists_plain
    obtain ⟨_, spelledBack, _⟩ := back.exists_plain
    exact solid_append.mpr ⟨signed.spelled.solid, (spelledFront.append spelledBack).solid⟩

theorem IsReal.real? (numeral : IsReal text) : (Numeral.real? text).isSome = true := by
  cases numeral with
  | @named sign name negative signed known =>
    have spelled := spelled_of_name known
    rw [Numeral.real?, (signed.spelled.append spelled).plain?]
    simp only [Option.bind_eq_bind, Option.bind_some, signed.splitSign (unsigned_of_name known)]
    split
    · rfl
    · rfl
    · rfl
    next notInf notInfinity notNan =>
      simp only [List.mem_cons, List.not_mem_nil, or_false] at known
      rcases known with same | same | same
      · exact absurd same notInf
      · exact absurd same notInfinity
      · exact absurd same notNan
  | decimal signed front back =>
    obtain ⟨mantissa, spelledFront, plain⟩ := front.exists_plain
    obtain ⟨exponent, spelledBack, accepted, ends⟩ := back.exists_plain
    have spelled := signed.spelled.append (spelledFront.append spelledBack)
    rw [Numeral.real?, spelled.plain?]
    simp only [Option.bind_eq_bind, Option.bind_some, signed.splitSign (plain.unsigned exponent)]
    split
    · rfl
    · rfl
    · rfl
    · exact plain.accepted _ exponent accepted ends

theorem isReal_of_real? (trimmed : trim text = text) (accepted : (real? text).isSome = true) :
    IsReal text := by
  have solid := solid_of_real? trimmed accepted
  unfold Numeral.real? at accepted
  cases done : plain? text with
  | none => simp [done] at accepted
  | some plain =>
    simp only [done, Option.bind_eq_bind, Option.bind_some] at accepted
    obtain ⟨sign, rest, rfl, signed, spelled⟩ := (spelled_of_plain? solid done).exists_sign
    -- A name has no digits, so it is spelled as it is.
    have named (known : String.ofList ((splitSign plain).2.map Char.toLower) ∈
        ["inf", "infinity", "nan"]) : IsReal (sign ++ rest) := by
      rw [spelled.eq_self fun c found => (isMark_of_name known c found).noDigit]
      exact .named signed known
    split at accepted
    next same => exact named (by simp [same])
    next same => exact named (by simp [same])
    next same => exact named (by simp [same])
    next =>
      obtain ⟨mantissa, exponent, rfl, front, back⟩ := spelled.exists_mantissa accepted
      exact .decimal signed front back

end Reals

end Pascalet.Numeral
