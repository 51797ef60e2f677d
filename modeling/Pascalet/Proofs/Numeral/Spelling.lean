import Pascalet.Proofs.Numeral.Accepted

namespace Pascalet.Numeral

open Text

/-- Digits of any script, with single underscores between them, and the values of the digits. -/
inductive DigitPart : (text : List Char) → (values : List Nat) → Prop where
  | one {c : Char} {value : Nat} (digit : digitValue? c = some value) : DigitPart [c] [value]
  | next {c : Char} {value : Nat} {text : List Char} {values : List Nat}
    (digit : digitValue? c = some value) (rest : DigitPart text values) :
    DigitPart (c :: text) (value :: values)
  | joined {c : Char} {value : Nat} {text : List Char} {values : List Nat}
    (digit : digitValue? c = some value) (rest : DigitPart text values) :
    DigitPart (c :: '_' :: text) (value :: values)

structure IsMark (c : Char) : Prop where
  ascii : c.toNat < 127
  noDigit : isAsciiDigit c = false
  noUnderscore : c ≠ '_'
  noBlank : isBlank c = false

def IsPlain (c : Char) : Prop :=
  isAsciiDigit c = true ∨ IsMark c

/-- A text and its plain form. -/
inductive Spelled : (text plain : List Char) → Prop where
  | nothing : Spelled [] []
  | mark {c : Char} {text plain : List Char} (mark : IsMark c) (rest : Spelled text plain) :
    Spelled (c :: text) (c :: plain)
  | part {digits text plain : List Char} {values : List Nat} (part : DigitPart digits values)
    (rest : Spelled text plain) : Spelled (digits ++ text) (values.map Nat.digitChar ++ plain)

section Characters

variable {c : Char} {value : Nat}

theorem isAsciiDigit_iff : isAsciiDigit c = true ↔ 48 ≤ c.toNat ∧ c.toNat ≤ 57 := by
  simp only [isAsciiDigit, Bool.and_eq_true, decide_eq_true_eq, Char.le_def]
  exact Iff.rfl

theorem isAsciiDigit_digitChar (small : value < 10) : isAsciiDigit (Nat.digitChar value) = true := by
  rw [isAsciiDigit_iff, Nat.toNat_digitChar_of_lt_ten small]
  omega

theorem digitValue?_of_isAsciiDigit (digit : isAsciiDigit c = true) :
    digitValue? c = some (c.toNat - 48) := by
  have bounds := isAsciiDigit_iff.mp digit
  have first : digitZeros.find? (fun first => first ≤ c.toNat && c.toNat < first + 10) = some 48 := by
    rw [digitZeros, List.find?_cons_of_pos]
    simp only [Bool.and_eq_true, decide_eq_true_eq]
    omega
  rw [digitValue?, first]
  rfl

theorem exists_zero_of_digitValue? (found : digitValue? c = some value) :
    ∃ first ∈ digitZeros, first ≤ c.toNat ∧ c.toNat < first + 10 := by
  obtain ⟨first, member, rfl⟩ := Option.map_eq_some_iff.mp found
  have inside := List.find?_some member
  simp only [Bool.and_eq_true, decide_eq_true_eq] at inside
  exact ⟨first, List.mem_of_find?_eq_some member, inside⟩

theorem isAsciiDigit_of_digitValue? (found : digitValue? c = some value) (ascii : c.toNat < 127) :
    isAsciiDigit c = true := by
  obtain ⟨first, known, inside⟩ := exists_zero_of_digitValue? found
  have scripts : ∀ first ∈ digitZeros, first = 48 ∨ 127 ≤ first := by decide
  have place := scripts first known
  rw [isAsciiDigit_iff]
  omega

theorem isBlank_of_digitValue? (found : digitValue? c = some value) : isBlank c = false := by
  obtain ⟨first, known, inside⟩ := exists_zero_of_digitValue? found
  have apart : ∀ first ∈ digitZeros, ∀ range ∈ blankRanges,
      first + 10 ≤ range.1 ∨ range.2 < first := by decide
  rw [isBlank, Bool.eq_false_iff]
  intro blank
  obtain ⟨range, member, bounds⟩ := inRanges_iff.mp blank
  have place := apart first known range member
  omega

theorem digitChar_of_isAsciiDigit (digit : isAsciiDigit c = true) :
    Nat.digitChar (c.toNat - 48) = c := by
  have bounds := isAsciiDigit_iff.mp digit
  apply Char.toNat_inj.mp
  rw [Nat.toNat_digitChar_of_lt_ten (by omega)]
  omega

theorem narrow?_of_digitValue? (found : digitValue? c = some value) :
    narrow? c = some (Nat.digitChar value) := by
  have small := digitValue?_lt found
  unfold narrow?
  split
  next ascii =>
    have digit := isAsciiDigit_of_digitValue? found ascii
    have same := digitValue?_of_isAsciiDigit digit
    rw [found] at same
    cases same
    rw [digitChar_of_isAsciiDigit digit]
  next =>
    have form : ∀ value < 10, Char.ofNat ('0'.toNat + value) = Nat.digitChar value := by decide
    rw [isBlank_of_digitValue? found, found]
    exact congrArg some (form value small)

theorem narrow?_of_ascii (ascii : c.toNat < 127) : narrow? c = some c :=
  if_pos ascii

theorem narrow?_cases {narrowed : Char} (done : narrow? c = some narrowed)
    (clear : isBlank c = false) :
    (∃ value, digitValue? c = some value ∧ narrowed = Nat.digitChar value) ∨
      narrowed = c ∧ (c = '_' ∨ IsMark c) := by
  cases found : digitValue? c with
  | some value =>
    rw [narrow?_of_digitValue? found] at done
    cases done
    exact .inl ⟨value, rfl, rfl⟩
  | none =>
    unfold narrow? at done
    split at done
    next ascii =>
      cases done
      refine .inr ⟨rfl, ?_⟩
      by_cases underscore : c = '_'
      · exact .inl underscore
      · refine .inr ⟨ascii, ?_, underscore, clear⟩
        rw [Bool.eq_false_iff]
        intro digit
        rw [digitValue?_of_isAsciiDigit digit] at found
        cases found
    next =>
      rw [clear, found] at done
      cases done

end Characters

section Parts

variable {text other : List Char} {values others : List Nat}

theorem DigitPart.append (part : DigitPart text values) (behind : DigitPart other others) :
    DigitPart (text ++ other) (values ++ others) := by
  induction part with
  | one digit => exact .next digit behind
  | next digit _ ih => exact .next digit ih
  | joined digit _ ih => exact .joined digit ih

theorem DigitPart.head (part : DigitPart text values) :
    ∃ c rest value others,
      text = c :: rest ∧ values = value :: others ∧ digitValue? c = some value := by
  cases part with
  | one digit => exact ⟨_, _, _, _, rfl, rfl, digit⟩
  | next digit _ => exact ⟨_, _, _, _, rfl, rfl, digit⟩
  | joined digit _ => exact ⟨_, _, _, _, rfl, rfl, digit⟩

theorem DigitPart.ne_nil (part : DigitPart text values) : values ≠ [] := by
  obtain ⟨_, _, _, _, _, rfl, _⟩ := part.head
  exact List.cons_ne_nil _ _

theorem DigitPart.small (part : DigitPart text values) : ∀ value ∈ values, value < 10 := by
  induction part with
  | one digit => simpa using digitValue?_lt digit
  | next digit _ ih => exact List.forall_mem_cons.mpr ⟨digitValue?_lt digit, ih⟩
  | joined digit _ ih => exact List.forall_mem_cons.mpr ⟨digitValue?_lt digit, ih⟩

theorem DigitPart.all_isAsciiDigit (part : DigitPart text values) :
    (values.map Nat.digitChar).all isAsciiDigit = true := by
  rw [List.all_map, List.all_eq_true]
  exact fun value found => isAsciiDigit_digitChar (part.small value found)

theorem DigitPart.solid (part : DigitPart text values) : Solid text := by
  induction part with
  | one digit => exact solid_cons.mpr ⟨isBlank_of_digitValue? digit, solid_nil⟩
  | next digit _ ih => exact solid_cons.mpr ⟨isBlank_of_digitValue? digit, ih⟩
  | joined digit _ ih =>
    exact solid_cons.mpr ⟨isBlank_of_digitValue? digit, solid_cons.mpr ⟨by decide, ih⟩⟩

end Parts

section Narrow

variable {c narrowed : Char} {text plain others : List Char} {values : List Nat}

theorem mapM_narrow?_cons (here : narrow? c = some narrowed)
    (behind : text.mapM narrow? = some others) :
    (c :: text).mapM narrow? = some (narrowed :: others) := by
  rw [List.mapM_cons, here, behind]
  rfl

theorem joinDigits?_cons (previous : Option Char) (other : c ≠ '_') :
    joinDigits? previous (c :: text) = (joinDigits? (some c) text).map (c :: ·) := by
  rw [joinDigits?]
  exact other

theorem ne_underscore_of_isAsciiDigit (digit : isAsciiDigit c = true) : c ≠ '_' := by
  rintro rfl
  exact absurd digit (by decide)

theorem DigitPart.exists_narrow (part : DigitPart text values) :
    ∃ first narrowed, text.mapM narrow? = some (first :: narrowed) ∧ isAsciiDigit first = true ∧
      ∀ previous behind plain, (∀ before, joinDigits? before behind = some plain) →
        joinDigits? previous (first :: narrowed ++ behind) =
          some (values.map Nat.digitChar ++ plain) := by
  induction part with
  | @one c value digit =>
    have ascii := isAsciiDigit_digitChar (digitValue?_lt digit)
    refine ⟨Nat.digitChar value, [], ?_, ascii, ?_⟩
    · exact mapM_narrow?_cons (narrow?_of_digitValue? digit) rfl
    · intro previous behind plain joins
      rw [List.cons_append, joinDigits?_cons _ (ne_underscore_of_isAsciiDigit ascii), List.nil_append,
        joins]
      rfl
  | @next c value text values digit part ih =>
    obtain ⟨first, narrowed, narrows, _, joinsRest⟩ := ih
    have ascii := isAsciiDigit_digitChar (digitValue?_lt digit)
    refine ⟨Nat.digitChar value, first :: narrowed, ?_, ascii, ?_⟩
    · exact mapM_narrow?_cons (narrow?_of_digitValue? digit) narrows
    · intro previous behind plain joins
      rw [List.cons_append, joinDigits?_cons _ (ne_underscore_of_isAsciiDigit ascii),
        joinsRest _ behind plain joins]
      rfl
  | @joined c value text values digit part ih =>
    obtain ⟨first, narrowed, narrows, firstAscii, joinsRest⟩ := ih
    have ascii := isAsciiDigit_digitChar (digitValue?_lt digit)
    refine ⟨Nat.digitChar value, '_' :: first :: narrowed, ?_, ascii, ?_⟩
    · exact mapM_narrow?_cons (narrow?_of_digitValue? digit)
        (mapM_narrow?_cons (narrow?_of_ascii (by decide)) narrows)
    · intro previous behind plain joins
      have between : ((some (Nat.digitChar value)).any isAsciiDigit &&
          (first :: narrowed ++ behind).head?.any isAsciiDigit) = true := by
        simp [ascii, firstAscii]
      rw [List.cons_append, joinDigits?_cons _ (ne_underscore_of_isAsciiDigit ascii), List.cons_append,
        joinDigits?, if_pos between, joinsRest _ behind plain joins]
      rfl

theorem Spelled.exists_narrow (spelled : Spelled text plain) :
    ∃ narrowed, text.mapM narrow? = some narrowed ∧
      ∀ previous, joinDigits? previous narrowed = some plain := by
  induction spelled with
  | nothing => exact ⟨[], rfl, fun _ => by rw [joinDigits?]⟩
  | @mark c text plain mark rest ih =>
    obtain ⟨narrowed, narrows, joins⟩ := ih
    refine ⟨c :: narrowed, mapM_narrow?_cons (narrow?_of_ascii mark.ascii) narrows, ?_⟩
    intro previous
    rw [joinDigits?_cons _ mark.noUnderscore, joins]
    rfl
  | @part digits text plain values part rest ih =>
    obtain ⟨narrowed, narrows, joins⟩ := ih
    obtain ⟨first, others, narrowsPart, _, joinsPart⟩ := part.exists_narrow
    refine ⟨first :: others ++ narrowed, ?_, fun previous => joinsPart previous narrowed plain joins⟩
    rw [List.mapM_append, narrowsPart, narrows]
    rfl

theorem Spelled.solid (spelled : Spelled text plain) : Solid text := by
  induction spelled with
  | nothing => exact solid_nil
  | mark mark _ ih => exact solid_cons.mpr ⟨mark.noBlank, ih⟩
  | part part _ ih => exact solid_append.mpr ⟨part.solid, ih⟩

theorem plain?_of_solid {narrowed : List Char} (solid : Solid text)
    (narrows : text.mapM narrow? = some narrowed) : plain? text = joinDigits? none narrowed := by
  have kept : ∀ c ∈ narrowed, isMargin c = false := by
    obtain ⟨form, rfl, forms⟩ := eq_map_of_narrow? narrows
    intro c found
    obtain ⟨original, member, rfl⟩ := List.mem_map.mp found
    exact isMargin_of_narrow? (forms original member) (solid original member)
  rw [plain?, narrows]
  exact congrArg (joinDigits? none) (trimMargin_eq_self kept)

theorem Spelled.plain? (spelled : Spelled text plain) : Numeral.plain? text = some plain := by
  obtain ⟨narrowed, narrows, joins⟩ := spelled.exists_narrow
  rw [plain?_of_solid spelled.solid narrows, joins]

theorem Spelled.joined {value : Nat} (spelled : Spelled text plain)
    (digit : digitValue? c = some value) (between : ∃ d ∈ text.head?, (digitValue? d).isSome = true) :
    Spelled (c :: '_' :: text) (Nat.digitChar value :: plain) := by
  obtain ⟨d, first, isDigit⟩ := between
  obtain ⟨other, found⟩ := Option.isSome_iff_exists.mp isDigit
  cases spelled with
  | nothing => cases first
  | mark mark rest =>
    cases first
    have ascii := isAsciiDigit_of_digitValue? found mark.ascii
    rw [mark.noDigit] at ascii
    cases ascii
  | part part rest => exact .part (.joined digit part) rest

theorem exists_digit_of_narrow {form : Char → Char} (forms : ∀ c ∈ text, narrow? c = some (form c))
    (digit : (text.map form).head?.any isAsciiDigit = true) :
    ∃ c ∈ text.head?, (digitValue? c).isSome = true := by
  cases text with
  | nil => cases digit
  | cons c rest =>
    have ascii : isAsciiDigit (form c) = true := digit
    refine ⟨c, rfl, ?_⟩
    have narrows := forms c List.mem_cons_self
    have clear := isBlank_of_narrow? narrows (isBlank_of_isAsciiDigit ascii)
    rcases narrow?_cases narrows clear with ⟨value, found, _⟩ | ⟨same, _⟩
    · rw [found]
      rfl
    · rw [same] at ascii
      rw [digitValue?_of_isAsciiDigit ascii]
      rfl

/-- Joined digits are spelled by what they are joined from. A digit in front of the text decides
whether the text may begin with an underscore, so the induction carries one. -/
theorem spelled_of_joinDigits? {form : Char → Char} (solid : Solid text)
    (forms : ∀ c ∈ text, narrow? c = some (form c)) :
    (∀ previous plain, previous.any isAsciiDigit = false →
      joinDigits? previous (text.map form) = some plain → Spelled text plain) ∧
    ∀ c value plain, digitValue? c = some value →
      joinDigits? (some (Nat.digitChar value)) (text.map form) = some plain →
        Spelled (c :: text) (Nat.digitChar value :: plain) := by
  induction text with
  | nil =>
    refine ⟨?_, ?_⟩
    · intro previous plain _ joins
      rw [List.map_nil, joinDigits?] at joins
      cases joins
      exact .nothing
    · intro c value plain digit joins
      rw [List.map_nil, joinDigits?] at joins
      cases joins
      exact .part (.one digit) .nothing
  | cons c rest ih =>
    rw [solid_cons] at solid
    rw [List.forall_mem_cons] at forms
    obtain ⟨alone, behindDigit⟩ := ih solid.2 forms.2
    rw [List.map_cons]
    -- What does not begin with an underscore is spelled alone, and then behind a digit as well.
    have both (free : ∀ previous plain, joinDigits? previous (form c :: rest.map form) = some plain →
        Spelled (c :: rest) plain) :
        (∀ previous plain, previous.any isAsciiDigit = false →
          joinDigits? previous (form c :: rest.map form) = some plain → Spelled (c :: rest) plain) ∧
        ∀ d value plain, digitValue? d = some value →
          joinDigits? (some (Nat.digitChar value)) (form c :: rest.map form) = some plain →
            Spelled (d :: c :: rest) (Nat.digitChar value :: plain) :=
      ⟨fun previous plain _ => free previous plain,
        fun d value plain digit joins => .part (.one digit) (free _ plain joins)⟩
    rcases narrow?_cases forms.1 solid.1 with ⟨value, digit, same⟩ | ⟨same, rfl | mark⟩
    · apply both
      intro previous plain joins
      have ascii := isAsciiDigit_digitChar (digitValue?_lt digit)
      rw [same, joinDigits?_cons _ (ne_underscore_of_isAsciiDigit ascii)] at joins
      obtain ⟨tail, joinsTail, rfl⟩ := Option.map_eq_some_iff.mp joins
      exact behindDigit c value tail digit joinsTail
    · rw [same]
      refine ⟨?_, ?_⟩
      · intro previous plain noDigit joins
        rw [joinDigits?, noDigit] at joins
        cases joins
      · intro d value plain digit joins
        rw [joinDigits?] at joins
        split at joins
        next between =>
          rw [Bool.and_eq_true] at between
          exact (alone (some '_') plain (by decide) joins).joined digit
            (exists_digit_of_narrow forms.2 between.2)
        next => cases joins
    · apply both
      intro previous plain joins
      rw [same, joinDigits?_cons _ mark.noUnderscore] at joins
      obtain ⟨tail, joinsTail, rfl⟩ := Option.map_eq_some_iff.mp joins
      refine .mark mark (alone (some c) tail ?_ joinsTail)
      exact mark.noDigit

theorem spelled_of_plain? (solid : Solid text) (done : plain? text = some plain) :
    Spelled text plain := by
  cases narrows : text.mapM narrow? with
  | none => simp [plain?, narrows] at done
  | some narrowed =>
    rw [plain?_of_solid solid narrows] at done
    obtain ⟨form, rfl, forms⟩ := eq_map_of_narrow? narrows
    exact (spelled_of_joinDigits? solid forms).1 none plain rfl done

end Narrow

section Inversion

variable {text plain : List Char}

theorem Spelled.append {other others : List Char} (spelled : Spelled text plain)
    (behind : Spelled other others) : Spelled (text ++ other) (plain ++ others) := by
  induction spelled with
  | nothing => exact behind
  | mark mark _ ih => exact .mark mark ih
  | part part _ ih =>
    rw [List.append_assoc, List.append_assoc]
    exact .part part ih

theorem DigitPart.spelled {values : List Nat} (part : DigitPart text values) :
    Spelled text (values.map Nat.digitChar) := by
  have spelled := Spelled.part part .nothing
  rwa [List.append_nil, List.append_nil] at spelled

theorem spelled_of_isPlain (plain : ∀ c ∈ text, IsPlain c) : Spelled text text := by
  induction text with
  | nil => exact .nothing
  | cons c rest ih =>
    obtain ⟨here, others⟩ := List.forall_mem_cons.mp plain
    rcases here with digit | mark
    · have part := Spelled.part (.one (digitValue?_of_isAsciiDigit digit)) (ih others)
      rw [List.map_singleton, digitChar_of_isAsciiDigit digit] at part
      exact part
    · exact .mark mark (ih others)

theorem Spelled.eq_nil (spelled : Spelled text []) : text = [] := by
  generalize empty : ([] : List Char) = plain at spelled
  cases spelled with
  | nothing => rfl
  | mark => cases empty
  | part part =>
    have none := List.map_eq_nil_iff.mp (List.append_eq_nil_iff.mp empty.symm).1
    exact absurd none part.ne_nil

theorem Spelled.exists_part (spelled : Spelled text plain) (all : plain.all isAsciiDigit = true)
    (present : plain ≠ []) : ∃ values, DigitPart text values ∧ plain = values.map Nat.digitChar := by
  induction spelled with
  | nothing => exact absurd rfl present
  | mark mark =>
    rw [List.all_cons, mark.noDigit] at all
    cases all
  | @part digits text plain values part rest ih =>
    rw [List.all_append, Bool.and_eq_true] at all
    cases plain with
    | nil =>
      rw [rest.eq_nil, List.append_nil, List.append_nil]
      exact ⟨values, part, rfl⟩
    | cons c others =>
      obtain ⟨behind, partBehind, same⟩ := ih all.2 (List.cons_ne_nil c others)
      refine ⟨values ++ behind, part.append partBehind, ?_⟩
      rw [same, List.map_append]

theorem Spelled.split {before after : List Char} {c : Char} (spelled : Spelled text plain)
    (whole : plain = before ++ c :: after) (noDigit : isAsciiDigit c = false) :
    ∃ front back, text = front ++ c :: back ∧ Spelled front before ∧ Spelled back after := by
  induction spelled generalizing before with
  | nothing => cases before <;> cases whole
  | @mark d text plain mark rest ih =>
    cases before with
    | nil =>
      cases whole
      exact ⟨[], text, rfl, .nothing, rest⟩
    | cons e others =>
      obtain ⟨rfl, behind⟩ := List.cons.inj whole
      obtain ⟨front, back, rfl, spelledFront, spelledBack⟩ := ih behind
      exact ⟨d :: front, back, rfl, .mark mark spelledFront, spelledBack⟩
  | @part digits text plain values part rest ih =>
    rcases List.append_eq_append_iff.mp whole with ⟨others, rfl, behind⟩ | ⟨others, inside, behind⟩
    · obtain ⟨front, back, rfl, spelledFront, spelledBack⟩ := ih behind
      refine ⟨digits ++ front, back, ?_, .part part spelledFront, spelledBack⟩
      rw [List.append_assoc]
    · cases others with
      | nil =>
        rw [List.append_nil] at inside
        subst inside
        have atOnce : plain = [] ++ c :: after := behind.symm
        obtain ⟨front, back, rfl, spelledFront, spelledBack⟩ := ih atOnce
        have spelled := Spelled.part part spelledFront
        rw [List.append_nil] at spelled
        exact ⟨digits ++ front, back, (List.append_assoc ..).symm, spelled, spelledBack⟩
      | cons d later =>
        -- A character among the digits would be one of them.
        obtain ⟨rfl, _⟩ := List.cons.inj behind
        have ascii := List.all_eq_true.mp part.all_isAsciiDigit c (by rw [inside]; simp)
        rw [noDigit] at ascii
        cases ascii

theorem Spelled.behind {c : Char} {after : List Char} (spelled : Spelled text (c :: after))
    (noDigit : isAsciiDigit c = false) : ∃ back, text = c :: back ∧ Spelled back after := by
  have whole : c :: after = [] ++ c :: after := rfl
  obtain ⟨front, back, rfl, empty, spelledBack⟩ := spelled.split whole noDigit
  rw [empty.eq_nil]
  exact ⟨back, rfl, spelledBack⟩

theorem Spelled.eq_self (spelled : Spelled text plain) (none : ∀ c ∈ plain, isAsciiDigit c = false) :
    text = plain := by
  induction spelled with
  | nothing => rfl
  | mark mark _ ih => rw [ih (List.forall_mem_cons.mp none).2]
  | @part digits text plain values part rest ih =>
    obtain ⟨c, others, value, later, rfl, rfl, digit⟩ := part.head
    have ascii := isAsciiDigit_digitChar (digitValue?_lt digit)
    rw [none _ (by simp)] at ascii
    cases ascii

end Inversion

end Pascalet.Numeral
