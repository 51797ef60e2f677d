import Pascalet.Proofs.Numeral.Decimal
import Pascalet.Token.Lexeme

namespace Pascalet.Lexeme

open Text

/-- Blanks and closed comments. -/
inductive IsGap : List Char → Prop where
  | empty : IsGap []
  | blank {c : Char} {rest : List Char} (blank : c ∈ [' ', '\t', '\r', '\n']) (more : IsGap rest) :
    IsGap (c :: rest)
  | braceComment {body rest : List Char} (inside : '\x7d' ∉ body) (more : IsGap rest) :
    IsGap ('\x7b' :: (body ++ '\x7d' :: rest))
  | starComment {body rest : List Char} (inside : ¬ ['*', '/'] <:+: body) (more : IsGap rest) :
    IsGap ('/' :: '*' :: (body ++ '*' :: '/' :: rest))

/-- The tokens that are written in one way only. -/
def signs : List (TokenKind × String) :=
  [(.operator .add, "+"), (.operator .subtract, "-"), (.operator .multiply, "*"),
    (.operator .divide, "/"), (.assign, ":="), (.relation .equal, "="), (.relation .notEqual, "<>"),
    (.relation .less, "<"), (.relation .atMost, "<="), (.relation .greater, ">"),
    (.relation .atLeast, ">="), (.leftParen, "("), (.rightParen, ")"), (.comma, ","), (.dot, "."),
    (.colon, ":"), (.semicolon, ";"), (.dollar, "$")]

def SpellsKeyword (word : Keyword) (text : List Char) : Prop :=
  text.map Char.toLower = word.spelling.toList

instance (word : Keyword) (text : List Char) : Decidable (SpellsKeyword word text) :=
  inferInstanceAs (Decidable (text.map Char.toLower = word.spelling.toList))

/-- The texts of each kind of token. The end of input has none. -/
inductive IsLexeme : TokenKind → List Char → Prop where
  | name {first : Char} {rest : List Char} (letter : isLetter first = true)
    (others : ∀ c ∈ rest, isLetter c = true ∨ isAsciiDigit c = true ∨ c = '_')
    (free : ∀ word, ¬ SpellsKeyword word (first :: rest)) : IsLexeme .identifier (first :: rest)
  | keyword {word : Keyword} {text : List Char} (spelled : SpellsKeyword word text) :
    IsLexeme (.keyword word) text
  | integer {digits : List Char} (nonempty : digits ≠ []) (all : ∀ c ∈ digits, isAsciiDigit c = true) :
    IsLexeme .integerLiteral digits
  | real {whole fraction : List Char} (nonempty : whole ≠ [])
    (all : ∀ c ∈ whole, isAsciiDigit c = true) (fractionNonempty : fraction ≠ [])
    (fractionAll : ∀ c ∈ fraction, isAsciiDigit c = true) :
    IsLexeme .realLiteral (whole ++ '.' :: fraction)
  | sign {kind : TokenKind} {spelling : String} (listed : (kind, spelling) ∈ signs) :
    IsLexeme kind spelling.toList

section Gaps

variable {text body rest : List Char}

theorem gap_braceComment (inside : '\x7d' ∉ body) :
    gap .braceComment (body ++ '\x7d' :: rest) = taking (body ++ ['\x7d']) (gap .layout rest) := by
  induction body with
  | nil => rw [List.nil_append, gap.eq_4, List.nil_append]
  | cons c body ih =>
    rw [List.mem_cons, not_or] at inside
    rw [List.cons_append, gap.eq_5 _ _ (fun same => inside.1 same.symm), ih inside.2]
    rfl

theorem gap_starComment (inside : ¬ ['*', '/'] <:+: body) :
    gap .starComment (body ++ '*' :: '/' :: rest) =
      taking (body ++ ['*', '/']) (gap .layout rest) := by
  induction body with
  | nil => rw [List.nil_append, gap.eq_6, List.nil_append]
  | cons c body ih =>
    have later : ¬ ['*', '/'] <:+: body := fun closed =>
      inside (closed.trans (List.suffix_cons c body).isInfix)
    -- A star at the end of the body does not close the comment together with the star behind it.
    have isOpen : ∀ tail, c = '*' → body ++ '*' :: '/' :: rest = '/' :: tail → False := by
      rintro tail rfl same
      cases body with
      | nil => cases same
      | cons d body =>
        injection same with slash
        subst slash
        exact inside (List.prefix_append ['*', '/'] body).isInfix
    rw [List.cons_append, gap.eq_7 _ _ isOpen, ih later]
    rfl

theorem IsGap.gap_append (isGap : IsGap text) (rest : List Char) :
    gap .layout (text ++ rest) = taking text (gap .layout rest) := by
  induction isGap with
  | empty => rfl
  | @blank c text blank more ih =>
    have layout : gap .layout (c :: (text ++ rest)) = taking [c] (gap .layout (text ++ rest)) := by
      simp only [List.mem_cons, List.not_mem_nil, or_false] at blank
      rcases blank with rfl | rfl | rfl | rfl <;> simp [gap, isLayout]
    rw [List.cons_append, layout, ih]
    rfl
  | @braceComment body text inside more ih =>
    rw [List.cons_append, List.append_assoc, List.cons_append, gap.eq_1, gap_braceComment inside, ih]
    simp [taking]
  | @starComment body text inside more ih =>
    rw [List.cons_append, List.cons_append, List.append_assoc, List.cons_append, List.cons_append,
      gap.eq_2, gap_starComment inside, ih]
    simp [taking]

end Gaps

def opensGap : List Char :=
  [' ', '\t', '\r', '\n', '\x7b', '/']

def Separated (text : List Char) : Prop :=
  ∀ c ∈ text.head?, c ∈ opensGap

theorem IsGap.separated {text : List Char} (isGap : IsGap text) {rest : List Char}
    (ends : text = [] → rest = []) : Separated (text ++ rest) := by
  intro c found
  cases isGap with
  | empty =>
    rw [ends rfl] at found
    cases found
  | blank blank more =>
    cases found
    simp only [List.mem_cons, List.not_mem_nil, or_false] at blank
    rcases blank with rfl | rfl | rfl | rfl <;> decide
  | braceComment inside more =>
    cases found
    decide
  | starComment inside more =>
    cases found
    decide

section Lexemes

variable {rest : List Char}

theorem takeWhile_separated {part : Char → Bool} {lexeme : List Char}
    (all : ∀ c ∈ lexeme, part c = true) (stops : opensGap.any part = false)
    (separated : Separated rest) :
    (lexeme ++ rest).takeWhile part = lexeme ∧ (lexeme ++ rest).dropWhile part = rest := by
  rw [List.takeWhile_append_of_pos all, List.dropWhile_append_of_pos all]
  cases rest with
  | nil => simp
  | cons c tail =>
    have stop : part c = false :=
      Bool.eq_false_iff.mpr (List.any_eq_false.mp stops c (separated c rfl))
    simp [stop]

theorem word_append_of_all {lexeme : List Char} (all : ∀ c ∈ lexeme, isNamePart c = true)
    (separated : Separated rest) :
    word (lexeme ++ rest) =
      ⟨match Keyword.ofName? lexeme with
        | some keyword => .keyword keyword
        | none => .identifier, lexeme, rest⟩ := by
  obtain ⟨taken, left⟩ := takeWhile_separated all (by decide) separated
  have split (text : List Char) : word text =
      ⟨match Keyword.ofName? (text.takeWhile isNamePart) with
        | some keyword => .keyword keyword
        | none => .identifier, text.takeWhile isNamePart, text.dropWhile isNamePart⟩ := rfl
  rw [split, taken, left]

theorem ofName?_eq_none {text : List Char} (free : ∀ word, ¬ SpellsKeyword word text) :
    Keyword.ofName? text = none := by
  rw [Keyword.ofName?, List.find?_eq_none]
  intro word _ same
  exact free word (beq_iff_eq.mp same).symm

theorem SpellsKeyword.ofName? {word : Keyword} {text : List Char} (spelled : SpellsKeyword word text) :
    Keyword.ofName? text = some word := by
  rw [Keyword.ofName?, spelled]
  cases word <;> rfl

theorem isAlpha_iff {c : Char} : c.isAlpha = true ↔
    (65 ≤ c.toNat ∧ c.toNat ≤ 90) ∨ (97 ≤ c.toNat ∧ c.toNat ≤ 122) := by
  have letters : c.isAlpha = (decide (c.val ≥ 65 ∧ c.val ≤ 90) ||
      (decide (c.val ≥ 97) && decide (c.val ≤ 122))) := rfl
  rw [letters]
  simp [UInt32.le_iff_toNat_le, ← Char.toNat_val]

theorem isAlpha_of_toLower {c : Char} (lower : c.toLower.isAlpha = true) : c.isAlpha = true := by
  unfold Char.toLower at lower
  split at lower
  next upper => exact isAlpha_iff.mpr (.inl ⟨upper.1, upper.2⟩)
  next => exact lower

theorem SpellsKeyword.isLetter {word : Keyword} {text : List Char} (spelled : SpellsKeyword word text) :
    ∀ c ∈ text, Text.isLetter c = true := by
  intro c found
  have lower : word.spelling.toList.all Char.isAlpha = true := by
    cases word <;> decide
  have folded := List.all_eq_true.mp lower _ (spelled ▸ List.mem_map_of_mem found)
  exact isLetter_of_isAlpha (isAlpha_of_toLower folded)

theorem isLetter_of_isAsciiDigit {c : Char} (digit : isAsciiDigit c = true) : isLetter c = false := by
  have bounds := Numeral.toNat_of_isAsciiDigit digit
  have alpha : c.isAlpha = false := by
    rw [Bool.eq_false_iff]
    intro alpha
    have others := isAlpha_iff.mp alpha
    omega
  simp [isLetter, alpha, show c.toNat < 128 by omega]

theorem number_append_of_all {digits : List Char} (all : ∀ c ∈ digits, isAsciiDigit c = true)
    (separated : Separated rest) : number (digits ++ rest) = ⟨.integerLiteral, digits, rest⟩ := by
  obtain ⟨taken, left⟩ := takeWhile_separated all (by decide) separated
  simp only [number, taken, left]
  split
  next c tail => exact absurd (separated '.' rfl) (by decide)
  next => rfl

theorem number_append_of_fraction {whole fraction : List Char}
    (all : ∀ c ∈ whole, isAsciiDigit c = true) (nonempty : fraction ≠ [])
    (fractionAll : ∀ c ∈ fraction, isAsciiDigit c = true) (separated : Separated rest) :
    number (whole ++ '.' :: fraction ++ rest) = ⟨.realLiteral, whole ++ '.' :: fraction, rest⟩ := by
  obtain ⟨c, tail, rfl⟩ := List.exists_cons_of_ne_nil nonempty
  obtain ⟨taken, left⟩ := takeWhile_separated fractionAll (by decide) separated
  have point : isAsciiDigit '.' = false := by decide
  have wholeTaken : (whole ++ '.' :: (c :: tail ++ rest)).takeWhile isAsciiDigit = whole := by
    rw [List.takeWhile_append_of_pos all]
    simp [point]
  have wholeLeft : (whole ++ '.' :: (c :: tail ++ rest)).dropWhile isAsciiDigit =
      '.' :: c :: (tail ++ rest) := by
    rw [List.dropWhile_append_of_pos all]
    simp [point]
  rw [List.append_assoc, List.cons_append]
  simp only [number, wholeTaken, wholeLeft, fractionAll c List.mem_cons_self, ↓reduceIte]
  rw [← List.cons_append, taken, left]

theorem first?_sign (separated : Separated rest) : ∀ sign ∈ signs,
    first? (sign.2.toList ++ rest) = some ⟨sign.1, sign.2.toList, rest⟩ := by
  -- A longer sign would need a character that no gap begins with.
  cases rest with
  | nil =>
    simp only [signs, List.forall_mem_cons, List.not_mem_nil, false_implies, implies_true, and_true]
    and_intros
    all_goals rfl
  | cons c tail =>
    have opens := separated c rfl
    simp only [opensGap, List.mem_cons, List.not_mem_nil, or_false] at opens
    simp only [signs, List.forall_mem_cons, List.not_mem_nil, false_implies, implies_true, and_true]
    rcases opens with rfl | rfl | rfl | rfl | rfl | rfl
    all_goals and_intros
    all_goals rfl

theorem IsLexeme.first?_append {kind : TokenKind} {lexeme : List Char} (lexed : IsLexeme kind lexeme)
    (separated : Separated rest) : first? (lexeme ++ rest) = some ⟨kind, lexeme, rest⟩ := by
  cases lexed with
  | @name first others letter parts free =>
    have all : ∀ c ∈ first :: others, isNamePart c = true := by
      rw [List.forall_mem_cons]
      refine ⟨by simp [isNamePart, letter], fun c found => ?_⟩
      simpa [isNamePart, or_assoc] using parts c found
    have found := word_append_of_all all separated
    rw [ofName?_eq_none free] at found
    rw [List.cons_append] at found ⊢
    simp only [first?, letter, ↓reduceIte, found]
  | @keyword word text spelled =>
    have letters := spelled.isLetter
    have all : ∀ c ∈ lexeme, isNamePart c = true := fun c found => by
      simp [isNamePart, letters c found]
    have found := word_append_of_all all separated
    rw [spelled.ofName?] at found
    cases lexeme with
    | nil => cases word <;> cases spelled
    | cons first others =>
      rw [List.cons_append] at found ⊢
      simp only [first?, letters first List.mem_cons_self, ↓reduceIte, found]
  | integer nonempty all =>
    have found := number_append_of_all all separated
    obtain ⟨c, tail, rfl⟩ := List.exists_cons_of_ne_nil nonempty
    have digit := all c List.mem_cons_self
    rw [List.cons_append] at found ⊢
    simp only [first?, isLetter_of_isAsciiDigit digit, Bool.false_eq_true, digit, ↓reduceIte, found]
  | real nonempty all fractionNonempty fractionAll =>
    have found := number_append_of_fraction all fractionNonempty fractionAll separated
    obtain ⟨c, tail, rfl⟩ := List.exists_cons_of_ne_nil nonempty
    have digit := all c List.mem_cons_self
    rw [List.cons_append, List.cons_append] at found ⊢
    simp only [first?, isLetter_of_isAsciiDigit digit, Bool.false_eq_true, digit, ↓reduceIte, found]
  | @sign _ spelling listed => exact first?_sign separated (kind, spelling) listed

theorem gap_of_first? {c : Char} {tail : List Char} {found : Split}
    (lexed : first? (c :: tail) = some found) (noComment : ∀ more, c = '/' → tail = '*' :: more → False) :
    gap .layout (c :: tail) = ([], c :: tail) := by
  have noBrace : c = '\x7b' → False := by
    rintro rfl
    cases lexed
  have noBlank : isLayout c = false := by
    rw [Bool.eq_false_iff]
    intro blank
    simp only [isLayout, Bool.or_eq_true, beq_iff_eq] at blank
    rcases blank with ((rfl | rfl) | rfl) | rfl <;> cases lexed
  rw [gap.eq_3 c tail noBrace noComment, noBlank, if_neg Bool.false_ne_true]

/-- A token is no gap, not even a slash with a comment behind it. -/
theorem IsLexeme.gap_append {kind : TokenKind} {lexeme : List Char} (lexed : IsLexeme kind lexeme)
    (separated : Separated rest) : gap .layout (lexeme ++ rest) = ([], lexeme ++ rest) := by
  have found := lexed.first?_append separated
  cases text : lexeme ++ rest with
  | nil => rfl
  | cons c tail =>
    rw [text] at found
    apply gap_of_first? found
    rintro more rfl rfl
    have divides : first? ('/' :: '*' :: more) = some ⟨.operator .divide, ['/'], '*' :: more⟩ := rfl
    rw [divides] at found
    cases found
    exact absurd (separated '*' rfl) (by decide)

end Lexemes

end Pascalet.Lexeme
