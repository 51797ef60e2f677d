import Pascalet.Numeral
import Pascalet.Proofs.Text.Blanks

namespace Pascalet.Numeral

open Text

def isDecimalPart (c : Char) : Bool :=
  isAsciiDigit c || c == '.'

/-- Digits, or digits on both sides of a point. -/
inductive IsDecimal : List Char → Prop where
  | whole {digits : List Char} (nonempty : digits ≠ []) (all : digits.all isAsciiDigit = true) :
    IsDecimal digits
  | fraction {digits others : List Char} (nonempty : digits ≠ [])
    (all : digits.all isAsciiDigit = true) (allOthers : others.all isAsciiDigit = true) :
    IsDecimal (digits ++ '.' :: others)

theorem toNat_of_isAsciiDigit {c : Char} (digit : isAsciiDigit c = true) :
    48 ≤ c.toNat ∧ c.toNat ≤ 57 := by
  simp only [isAsciiDigit, Bool.and_eq_true, decide_eq_true_eq, Char.le_def] at digit
  exact ⟨digit.1, digit.2⟩

theorem toNat_of_isDecimalPart {c : Char} (part : isDecimalPart c = true) :
    46 ≤ c.toNat ∧ c.toNat ≤ 57 := by
  simp only [isDecimalPart, Bool.or_eq_true, beq_iff_eq] at part
  rcases part with digit | rfl
  · have := toNat_of_isAsciiDigit digit
    omega
  · decide

theorem IsDecimal.all {text : List Char} (decimal : IsDecimal text) :
    ∀ c ∈ text, isDecimalPart c = true := by
  intro c found
  cases decimal with
  | whole nonempty all => simp [isDecimalPart, List.all_eq_true.mp all c found]
  | fraction nonempty all allOthers =>
    simp only [List.mem_append, List.mem_cons] at found
    rcases found with inside | rfl | inside
    · simp [isDecimalPart, List.all_eq_true.mp all c inside]
    · rfl
    · simp [isDecimalPart, List.all_eq_true.mp allOthers c inside]

theorem IsDecimal.head {text : List Char} (decimal : IsDecimal text) :
    ∃ c rest, text = c :: rest ∧ isAsciiDigit c = true := by
  cases decimal with
  | whole nonempty all =>
    obtain ⟨c, rest, rfl⟩ := List.exists_cons_of_ne_nil nonempty
    exact ⟨c, rest, rfl, List.all_eq_true.mp all c List.mem_cons_self⟩
  | fraction nonempty all allOthers =>
    obtain ⟨c, rest, rfl⟩ := List.exists_cons_of_ne_nil nonempty
    exact ⟨c, _, rfl, List.all_eq_true.mp all c List.mem_cons_self⟩

theorem dropWhile_eq_self {α : Type} {skips : α → Bool} {list : List α}
    (kept : ∀ item ∈ list, skips item = false) : list.dropWhile skips = list := by
  cases list with
  | nil => rfl
  | cons item rest => rw [List.dropWhile_cons, kept item List.mem_cons_self, if_neg Bool.false_ne_true]

theorem trimMargin_eq_self {text : List Char} (kept : ∀ c ∈ text, isMargin c = false) :
    trimMargin text = text := by
  unfold trimMargin
  rw [dropWhile_eq_self kept, dropWhile_eq_self fun c found => kept c (List.mem_reverse.mp found),
    List.reverse_reverse]

theorem joinDigits?_eq_self {text : List Char} (kept : ∀ c ∈ text, c ≠ '_')
    (previous : Option Char) : joinDigits? previous text = some text := by
  induction text generalizing previous with
  | nil => simp [joinDigits?]
  | cons c rest ih =>
    have tail := ih fun other found => kept other (List.mem_cons_of_mem c found)
    rw [joinDigits?, tail]
    · rfl
    · intro underscore
      exact kept c List.mem_cons_self underscore

theorem plain?_eq_self {text : List Char} (ink : ∀ c ∈ text, isInk c = true)
    (noUnderscore : ∀ c ∈ text, c ≠ '_') : plain? text = some text := by
  have narrowed : text.mapM narrow? = some text := by
    clear noUnderscore
    induction text with
    | nil => rfl
    | cons c rest ih =>
      have bounds := isInk_iff.mp (ink c List.mem_cons_self)
      have kept : narrow? c = some c := by
        unfold narrow?
        rw [if_pos (by omega)]
      rw [List.mapM_cons, kept, ih fun other found => ink other (List.mem_cons_of_mem c found)]
      rfl
  have noMargin : ∀ c ∈ text, isMargin c = false := by
    intro c found
    have bounds := isInk_iff.mp (ink c found)
    simp only [isMargin, Bool.or_eq_false_iff, beq_eq_false_iff_ne, Bool.and_eq_false_iff,
      decide_eq_false_iff_not]
    refine ⟨?_, by omega⟩
    rintro rfl
    revert bounds
    decide
  rw [plain?, narrowed]
  change joinDigits? none (trimMargin text) = some text
  rw [trimMargin_eq_self noMargin, joinDigits?_eq_self noUnderscore]

theorem isInk_of_isDecimalPart {c : Char} (part : isDecimalPart c = true) : isInk c = true := by
  have bounds := toNat_of_isDecimalPart part
  rw [isInk_iff]
  omega

theorem IsDecimal.ink {text : List Char} (decimal : IsDecimal text) :
    ∀ c ∈ text, isInk c = true :=
  fun c found => isInk_of_isDecimalPart (decimal.all c found)

theorem IsDecimal.noUnderscore {text : List Char} (decimal : IsDecimal text) :
    ∀ c ∈ text, c ≠ '_' := by
  rintro c found rfl
  exact absurd (decimal.all '_' found) (by decide)

theorem splitSign_eq_self {c : Char} {rest : List Char} (digit : isAsciiDigit c = true) :
    splitSign (c :: rest) = (false, c :: rest) := by
  unfold splitSign
  split
  next equal => exact absurd digit (by injection equal with head; subst head; decide)
  next equal => exact absurd digit (by injection equal with head; subst head; decide)
  next => rfl

theorem takeWhile_dropWhile_digits {digits : List Char} (rest : List Char)
    (all : digits.all isAsciiDigit = true) (stops : ∀ c ∈ rest.head?, isAsciiDigit c = false) :
    (digits ++ rest).takeWhile isAsciiDigit = digits ∧
      (digits ++ rest).dropWhile isAsciiDigit = rest := by
  have allMember := List.all_eq_true.mp all
  rw [List.takeWhile_append_of_pos allMember, List.dropWhile_append_of_pos allMember]
  cases rest with
  | nil => simp
  | cons c rest => simp [stops c (by simp)]

theorem decimal?_append {whole rest : List Char} (negative : Bool)
    (all : whole.all isAsciiDigit = true) (present : whole ≠ [])
    (ends : ∀ c ∈ rest.head?, isAsciiDigit c = false ∧ c ≠ '.') :
    decimal? negative (whole ++ rest) = (exponent? rest).map fun exponent =>
      Binary64.ofDecimal negative (digitsValue whole) exponent := by
  have split := takeWhile_dropWhile_digits rest all fun c first => (ends c first).1
  simp only [decimal?, split.1, split.2]
  split
  next point => exact absurd rfl (ends '.' rfl).2
  next => simp [present]

theorem decimal?_append_point {whole fraction rest : List Char} (negative : Bool)
    (all : whole.all isAsciiDigit = true) (others : fraction.all isAsciiDigit = true)
    (present : whole ≠ [] ∨ fraction ≠ []) (ends : ∀ c ∈ rest.head?, isAsciiDigit c = false) :
    decimal? negative (whole ++ '.' :: (fraction ++ rest)) = (exponent? rest).map fun exponent =>
      Binary64.ofDecimal negative (digitsValue (whole ++ fraction)) (exponent - fraction.length) := by
  have stops : ∀ c ∈ ('.' :: (fraction ++ rest)).head?, isAsciiDigit c = false := by
    rintro _ ⟨⟩
    decide
  have split := takeWhile_dropWhile_digits _ all stops
  have splitOthers := takeWhile_dropWhile_digits rest others ends
  have kept : (whole.isEmpty && fraction.isEmpty) = false := by
    rcases present with present | present
    · simp [present]
    · simp [present]
  simp only [decimal?, split.1, split.2, splitOthers.1, splitOthers.2, kept, Bool.false_eq_true,
    ↓reduceIte]

theorem decimal?_isSome {text : List Char} (decimal : IsDecimal text) (negative : Bool) :
    (decimal? negative text).isSome = true := by
  have ends : ∀ c ∈ ([] : List Char).head?, isAsciiDigit c = false ∧ c ≠ '.' := by simp
  cases decimal with
  | whole nonempty all =>
    have read := decimal?_append negative all nonempty ends
    rw [List.append_nil] at read
    rw [read]
    rfl
  | fraction nonempty all allOthers =>
    have read := decimal?_append_point negative all allOthers (.inl nonempty) fun c first =>
      (ends c first).1
    rw [List.append_nil] at read
    rw [read]
    rfl

theorem real?_isSome {text : List Char} (decimal : IsDecimal text) :
    (real? text).isSome = true := by
  obtain ⟨c, rest, rfl, digit⟩ := decimal.head
  rw [real?, plain?_eq_self decimal.ink decimal.noUnderscore]
  simp only [bind, Option.bind, splitSign_eq_self digit]
  split
  · rfl
  · rfl
  · rfl
  · exact decimal?_isSome decimal false

end Pascalet.Numeral
