import Mathlib.Data.List.Infix
import Pascalet.Proofs.Token.Spelling

namespace Pascalet.Lexeme

open Text

inductive IsUnclosed : List Char → Prop where
  | braceComment {front body : List Char} (isGap : IsGap front) (inside : '\x7d' ∉ body) :
    IsUnclosed (front ++ '\x7b' :: body)
  | starComment {front body : List Char} (isGap : IsGap front) (inside : ¬ ['*', '/'] <:+: body) :
    IsUnclosed (front ++ '/' :: '*' :: body)

def StartsGap (text : List Char) : Prop :=
  (∃ c ∈ [' ', '\t', '\r', '\n'], [c] <+: text) ∨ ['\x7b'] <+: text ∨ ['/', '*'] <+: text

def StartsLexeme (text : List Char) : Prop :=
  ∃ kind lexeme, IsLexeme kind lexeme ∧ lexeme <+: text

/-- The text in front is a token, and no longer one is a token of any kind. -/
structure IsLongest (kind : TokenKind) (lexeme text : List Char) : Prop where
  lexed : IsLexeme kind lexeme
  inFront : lexeme <+: text
  longest : ∀ otherKind other, IsLexeme otherKind other → other <+: text →
    other.length ≤ lexeme.length

section Gaps

variable {front back closer rest : List Char} {c : Char} {split : List Char × List Char}

theorem taking_taking (first second : List Char) :
    taking first (taking second split) = taking (first ++ second) split := by
  simp [taking]

theorem IsGap.append (isGap : IsGap front) (more : IsGap back) : IsGap (front ++ back) := by
  induction isGap with
  | empty => exact more
  | blank blank _ ih => exact .blank blank ih
  | @braceComment body rest inside _ ih =>
    have longer := IsGap.braceComment inside ih
    simpa using longer
  | @starComment body rest inside _ ih =>
    have longer := IsGap.starComment inside ih
    simpa using longer

theorem IsUnclosed.append (isGap : IsGap front) (unclosed : IsUnclosed back) :
    IsUnclosed (front ++ back) := by
  cases unclosed with
  | braceComment more inside =>
    rw [← List.append_assoc]
    exact .braceComment (isGap.append more) inside
  | starComment more inside =>
    rw [← List.append_assoc]
    exact .starComment (isGap.append more) inside

inductive Skipped (split : List Char × List Char) : Prop where
  | closed (isGap : IsGap split.1) (ends : ¬ StartsGap split.2)
  | unclosed (isUnclosed : IsUnclosed split.1) (ends : split.2 = [])

theorem Skipped.taking (isGap : IsGap front) (skipped : Skipped split) :
    Skipped (taking front split) := by
  cases skipped with
  | closed more ends => exact .closed (isGap.append more) ends
  | unclosed more ends => exact .unclosed (more.append isGap) ends

inductive Commented (closer : List Char) (split : List Char × List Char) : Prop where
  | closed {body : List Char} {later : List Char × List Char} (inside : ¬ closer <:+: body)
    (skipped : Skipped later) (same : split = taking (body ++ closer) later)
  | unclosed (inside : ¬ closer <:+: split.1) (ends : split.2 = [])

theorem Commented.cons (commented : Commented closer split) (parts : split.1 ++ split.2 = rest)
    (isOpen : ¬ closer <+: c :: rest) : Commented closer (taking [c] split) := by
  have outside {body : List Char} (inFront : body <+: rest) (inside : ¬ closer <:+: body) :
      ¬ closer <:+: c :: body := by
    intro closed
    rcases List.infix_cons_iff.mp closed with first | later
    · exact isOpen (first.trans ((List.prefix_cons_inj c).mpr inFront))
    · exact inside later
  cases commented with
  | @closed body later inside skipped same =>
    have inFront : body <+: rest := by
      rw [← parts, same, Lexeme.taking, List.append_assoc, List.append_assoc]
      exact List.prefix_append _ _
    refine .closed (outside inFront inside) skipped ?_
    rw [same]
    rfl
  | unclosed inside ends =>
    refine .unclosed (outside ?_ inside) ends
    rw [← parts]
    exact List.prefix_append _ _

def Passed : Place → List Char × List Char → Prop
  | .layout => Skipped
  | .braceComment => Commented ['\x7d']
  | .starComment => Commented ['*', '/']

theorem passed_gap (place : Place) (text : List Char) : Passed place (gap place text) := by
  fun_induction gap place text with
  | case1 rest ih =>
    cases ih with
    | @closed body later inside skipped same =>
      rw [List.singleton_infix_iff] at inside
      have isGap : IsGap ('\x7b' :: (body ++ '\x7d' :: [])) := .braceComment inside .empty
      have passed := skipped.taking isGap
      rwa [same, taking_taking]
    | unclosed inside ends =>
      rw [List.singleton_infix_iff] at inside
      exact .unclosed (@IsUnclosed.braceComment [] _ .empty inside) ends
  | case2 rest ih =>
    cases ih with
    | @closed body later inside skipped same =>
      have isGap : IsGap ('/' :: '*' :: (body ++ '*' :: '/' :: [])) := .starComment inside .empty
      have passed := skipped.taking isGap
      rwa [same, taking_taking]
    | unclosed inside ends => exact .unclosed (@IsUnclosed.starComment [] _ .empty inside) ends
  | case3 c rest notBrace notStar layout ih =>
    have blank : c ∈ [' ', '\t', '\r', '\n'] := by
      simpa [isLayout, or_assoc] using layout
    exact ih.taking (.blank blank .empty)
  | case4 c rest notBrace notStar notLayout =>
    refine .closed .empty ?_
    rintro (⟨blank, member, first⟩ | brace | star)
    · obtain rfl := (List.cons_prefix_cons.mp first).1
      apply notLayout
      simpa [isLayout, or_assoc] using member
    · exact notBrace (List.cons_prefix_cons.mp brace).1.symm
    · obtain ⟨slash, later⟩ := List.cons_prefix_cons.mp star
      obtain ⟨more, same⟩ := later
      exact notStar more slash.symm same.symm
  | case5 rest ih => exact @Commented.closed _ _ [] _ (by simp) ih rfl
  | case6 c rest isOpen ih =>
    refine ih.cons (gap_append _ _) ?_
    intro closes
    exact isOpen (List.cons_prefix_cons.mp closes).1.symm
  | case7 rest ih => exact @Commented.closed _ _ [] _ (by simp) ih rfl
  | case8 c rest isOpen ih =>
    refine ih.cons (gap_append _ _) ?_
    intro closes
    obtain ⟨star, more, same⟩ := List.cons_prefix_cons.mp closes
    exact isOpen more star.symm same.symm
  | case9 place =>
    cases place with
    | layout => exact .closed .empty (by simp [StartsGap])
    | braceComment => exact .unclosed (by simp) rfl
    | starComment => exact .unclosed (by simp) rfl

end Gaps

section Lexemes

variable {text lexeme rest : List Char} {kind : TokenKind} {split : Split}

theorem spellsKeyword_of_ofName? {word : Keyword} (found : Keyword.ofName? text = some word) :
    SpellsKeyword word text := by
  have same := List.find?_some found
  exact (beq_iff_eq.mp same).symm

theorem isLexeme_word {c : Char} (rest : List Char) (letter : isLetter c = true) :
    IsLexeme (word (c :: rest)).kind (word (c :: rest)).lexeme := by
  have part : isNamePart c = true := by simp [isNamePart, letter]
  have name : (c :: rest).takeWhile isNamePart = c :: rest.takeWhile isNamePart :=
    List.takeWhile_cons_of_pos part
  unfold word
  dsimp only
  rw [name]
  cases found : Keyword.ofName? (c :: rest.takeWhile isNamePart) with
  | some keyword => exact .keyword (spellsKeyword_of_ofName? found)
  | none =>
    refine .name letter ?_ ?_
    · intro other member
      have named := List.all_eq_true.mp List.all_takeWhile other member
      simpa [isNamePart, or_assoc] using named
    · intro keyword spelled
      rw [spelled.ofName?] at found
      cases found

theorem isLexeme_number {c : Char} (rest : List Char) (digit : isAsciiDigit c = true) :
    IsLexeme (number (c :: rest)).kind (number (c :: rest)).lexeme := by
  have digits (text : List Char) : ∀ c ∈ text.takeWhile isAsciiDigit, isAsciiDigit c = true :=
    List.all_eq_true.mp List.all_takeWhile
  have nonempty : (c :: rest).takeWhile isAsciiDigit ≠ [] := by simp [digit]
  unfold number
  dsimp only
  split
  next following tail point =>
    split
    next fraction => exact .real nonempty (digits _) (by simp [fraction]) (digits _)
    next => exact .integer nonempty (digits _)
  next => exact .integer nonempty (digits _)

theorem isLexeme_symbol (found : symbol? text = some split) :
    IsLexeme split.kind split.lexeme := by
  have listed : (split.kind, String.ofList split.lexeme) ∈ signs := by
    unfold symbol? at found
    split at found <;> cases found <;> dsimp only <;> decide
  have lexed := IsLexeme.sign listed
  rwa [String.toList_ofList] at lexed

theorem isLexeme_of_first? (found : first? text = some split) : IsLexeme split.kind split.lexeme := by
  cases text with
  | nil => cases found
  | cons c rest =>
    simp only [first?] at found
    split at found
    next letter =>
      cases found
      exact isLexeme_word rest letter
    next =>
      split at found
      next digit =>
        cases found
        exact isLexeme_number rest digit
      next => exact isLexeme_symbol found

theorem first?_of_letter {c : Char} (letter : isLetter c = true) (rest : List Char) :
    first? (c :: rest) = some (word (c :: rest)) := by
  rw [first?, if_pos letter]

theorem first?_of_digit {c : Char} (digit : isAsciiDigit c = true) (rest : List Char) :
    first? (c :: rest) = some (number (c :: rest)) := by
  rw [first?, isLetter_of_isAsciiDigit digit, if_neg Bool.false_ne_true, if_pos digit]

theorem length_le_takeWhile {part : Char → Bool} (all : ∀ c ∈ lexeme, part c = true)
    (rest : List Char) : lexeme.length ≤ ((lexeme ++ rest).takeWhile part).length := by
  rw [List.takeWhile_append_of_pos all, List.length_append]
  exact Nat.le_add_right _ _

theorem takeWhile_le_number (text : List Char) :
    (text.takeWhile isAsciiDigit).length ≤ (number text).lexeme.length := by
  unfold number
  dsimp only
  split
  next following tail point =>
    split
    next =>
      rw [List.length_append]
      exact Nat.le_add_right _ _
    next => exact Nat.le_refl _
  next => exact Nat.le_refl _

theorem fraction_le_number {whole fraction : List Char}
    (all : ∀ c ∈ whole, isAsciiDigit c = true) (nonempty : fraction ≠ [])
    (fractionAll : ∀ c ∈ fraction, isAsciiDigit c = true) (rest : List Char) :
    (whole ++ '.' :: fraction).length ≤ (number (whole ++ '.' :: fraction ++ rest)).lexeme.length := by
  obtain ⟨c, tail, rfl⟩ := List.exists_cons_of_ne_nil nonempty
  have point : isAsciiDigit '.' = false := by decide
  have taken : (whole ++ '.' :: (c :: tail ++ rest)).takeWhile isAsciiDigit = whole := by
    rw [List.takeWhile_append_of_pos all]
    simp [point]
  have left : (whole ++ '.' :: (c :: tail ++ rest)).dropWhile isAsciiDigit =
      '.' :: c :: (tail ++ rest) := by
    rw [List.dropWhile_append_of_pos all]
    simp [point]
  have digit : isAsciiDigit c = true := fractionAll c List.mem_cons_self
  have enough := length_le_takeWhile fractionAll rest
  rw [List.append_assoc, List.cons_append]
  simp only [number, taken, left, digit, ↓reduceIte, List.length_append, List.length_cons] at enough ⊢
  rw [List.cons_append] at enough
  omega

/-- Where a sign can be the beginning of a longer one, one of them is found. -/
theorem first?_of_shared {sign : String} (shared : sign ∈ [":", "<", ">"]) (rest : List Char) :
    ∃ split, first? (sign.toList ++ rest) = some split := by
  simp only [List.mem_cons, List.not_mem_nil, or_false] at shared
  by_cases equals : ∃ tail, rest = '=' :: tail
  · obtain ⟨tail, rfl⟩ := equals
    rcases shared with rfl | rfl | rfl <;> exact ⟨_, rfl⟩
  by_cases greater : ∃ tail, rest = '>' :: tail
  · obtain ⟨tail, rfl⟩ := greater
    rcases shared with rfl | rfl | rfl <;> exact ⟨_, rfl⟩
  have noEquals : ∀ tail, rest = '=' :: tail → False := fun tail same => equals ⟨tail, same⟩
  have noGreater : ∀ tail, rest = '>' :: tail → False := fun tail same => greater ⟨tail, same⟩
  rcases shared with rfl | rfl | rfl
  · exact ⟨_, symbol?.eq_5 rest noEquals⟩
  · exact ⟨_, symbol?.eq_6 rest noEquals noGreater⟩
  · exact ⟨_, symbol?.eq_7 rest noEquals⟩

theorem first?_of_sign {sign : TokenKind × String} (listed : sign ∈ signs) (rest : List Char) :
    ∃ split, first? (sign.2.toList ++ rest) = some split ∧
      sign.2.toList.length ≤ split.lexeme.length := by
  have cases : ∀ sign ∈ signs, sign.2 ∈ [":", "<", ">"] ∨
      first? (sign.2.toList ++ rest) = some ⟨sign.1, sign.2.toList, rest⟩ := by
    simp only [signs, List.forall_mem_cons, List.not_mem_nil, false_implies, implies_true, and_true]
    and_intros
    all_goals first
      | exact .inr rfl
      | exact .inl (by decide)
  rcases cases sign listed with shared | found
  · obtain ⟨split, found⟩ := first?_of_shared shared rest
    have one : sign.2.toList.length = 1 := by
      simp only [List.mem_cons, List.not_mem_nil, or_false] at shared
      rcases shared with same | same | same <;> rw [same] <;> rfl
    rw [one]
    exact ⟨split, found, List.length_pos_iff.mpr (first?_append found).2⟩
  · exact ⟨_, found, Nat.le_refl _⟩

/-- Where a token stands in front, a token is found, and it is no shorter. -/
theorem IsLexeme.first?_of_prefix (lexed : IsLexeme kind lexeme) (inFront : lexeme <+: text) :
    ∃ split, first? text = some split ∧ lexeme.length ≤ split.lexeme.length := by
  obtain ⟨rest, rfl⟩ := inFront
  cases lexed with
  | @name first others letter parts free =>
    have all : ∀ c ∈ first :: others, isNamePart c = true := by
      rw [List.forall_mem_cons]
      refine ⟨by simp [isNamePart, letter], fun c found => ?_⟩
      simpa [isNamePart, or_assoc] using parts c found
    exact ⟨_, first?_of_letter letter _, length_le_takeWhile all rest⟩
  | @keyword word _ spelled =>
    have letters := spelled.isLetter
    have all : ∀ c ∈ lexeme, isNamePart c = true := fun c found => by
      simp [isNamePart, letters c found]
    cases lexeme with
    | nil => cases word <;> cases spelled
    | cons first others =>
      have letter := letters first List.mem_cons_self
      exact ⟨_, first?_of_letter letter _, length_le_takeWhile all rest⟩
  | integer nonempty all =>
    obtain ⟨c, tail, rfl⟩ := List.exists_cons_of_ne_nil nonempty
    have enough := length_le_takeWhile all rest
    exact ⟨_, first?_of_digit (all c List.mem_cons_self) _, enough.trans (takeWhile_le_number _)⟩
  | real nonempty all fractionNonempty fractionAll =>
    have enough := fraction_le_number all fractionNonempty fractionAll rest
    obtain ⟨c, tail, rfl⟩ := List.exists_cons_of_ne_nil nonempty
    exact ⟨_, first?_of_digit (all c List.mem_cons_self) _, enough⟩
  | sign listed => exact first?_of_sign listed rest

theorem isLongest_of_first? (found : first? text = some split) :
    IsLongest split.kind split.lexeme text := by
  have parts := (first?_append found).1
  refine ⟨isLexeme_of_first? found, ⟨split.rest, parts⟩, ?_⟩
  intro otherKind other lexed inFront
  obtain ⟨same, foundSame, longer⟩ := lexed.first?_of_prefix inFront
  cases found.symm.trans foundSame
  exact longer

theorem not_startsLexeme (none : first? text = none) : ¬ StartsLexeme text := by
  rintro ⟨kind, lexeme, lexed, inFront⟩
  obtain ⟨split, found, _⟩ := lexed.first?_of_prefix inFront
  cases none.symm.trans found

end Lexemes

end Pascalet.Lexeme
