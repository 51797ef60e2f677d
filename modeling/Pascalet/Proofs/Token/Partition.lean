import Pascalet.Proofs.Token.Longest
import Pascalet.Proofs.Token.Rendering

namespace Pascalet

open Lexeme

def lineBehind (text : List Char) : Nat :=
  1 + text.count '\n'

theorem lineBehind_append (before text : List Char) :
    lineBehind (before ++ text) = lineBehind before + text.count '\n' := by
  rw [lineBehind, lineBehind, List.count_append, Nat.add_assoc]

structure Piece where
  gap : List Char
  token : Token

namespace Piece

def lexeme (piece : Piece) : List Char :=
  piece.token.lexeme.toList

def text (piece : Piece) : List Char :=
  piece.gap ++ piece.lexeme

/-- A piece between two texts: its gap is one, its token is the longest, and the line is the one in which
the token starts. -/
structure Stands (before : List Char) (piece : Piece) (behind : List Char) : Prop where
  isGap : IsGap piece.gap
  line : piece.token.line = lineBehind (before ++ piece.gap)
  longest : IsLongest piece.token.kind piece.lexeme (piece.lexeme ++ behind)

end Piece

/-- How a text goes on behind its last piece. The end of input stands behind a gap, in which the last
comment may be open; an invalid character behind a gap begins no token and no gap. -/
def TokenList.Ends (list : TokenList) (before : List Char) (pieces : List Piece) (rest : List Char) : Prop :=
  match list.failure with
  | none => (IsGap rest ∨ IsUnclosed rest) ∧ list.tokens =
      pieces.map Piece.token ++ [⟨.endOfInput, "", lineBehind (before ++ rest)⟩]
  | some failure => list.tokens = pieces.map Piece.token ∧ ∃ gap tail,
      rest = gap ++ failure.character :: tail ∧ IsGap gap ∧
        ¬ StartsGap (failure.character :: tail) ∧ ¬ StartsLexeme (failure.character :: tail) ∧
        failure.line = lineBehind (before ++ gap)

/-- A text behind another one is partitioned into pieces and a rest. -/
structure TokenList.Partition (list : TokenList) (before text : List Char) (pieces : List Piece)
    (rest : List Char) : Prop where
  whole : text = pieces.flatMap Piece.text ++ rest
  stands : ∀ front piece back, pieces = front ++ piece :: back →
    piece.Stands (before ++ front.flatMap Piece.text) (back.flatMap Piece.text ++ rest)
  ends : list.Ends (before ++ pieces.flatMap Piece.text) pieces rest

namespace Lexeme

theorem IsLexeme.newline_not_mem {kind : TokenKind} {lexeme : List Char} (lexed : IsLexeme kind lexeme) :
    '\n' ∉ lexeme := by
  have noLetter : Text.isLetter '\n' = false := by decide
  have noDigit : Text.isAsciiDigit '\n' = false := by decide
  intro found
  cases lexed with
  | name letter others free =>
    rcases List.mem_cons.mp found with rfl | later
    · simp [noLetter] at letter
    · simpa [noLetter, noDigit] using others '\n' later
  | keyword spelled => simpa [noLetter] using spelled.isLetter '\n' found
  | integer nonempty all => simpa [noDigit] using all '\n' found
  | real nonempty all fractionNonempty fractionAll =>
    rcases List.mem_append.mp found with whole | fraction
    · simpa [noDigit] using all '\n' whole
    · rcases List.mem_cons.mp fraction with point | later
      · cases point
      · simpa [noDigit] using fractionAll '\n' later
  | @sign _ spelling listed =>
    have none : ∀ sign ∈ signs, '\n' ∉ sign.2.toList := by decide
    exact none (kind, spelling) listed found

theorem IsLexeme.lineBehind_append {kind : TokenKind} {lexeme : List Char}
    (lexed : IsLexeme kind lexeme) (before : List Char) :
    lineBehind (before ++ lexeme) = lineBehind before := by
  rw [Pascalet.lineBehind_append, List.count_eq_zero.mpr lexed.newline_not_mem, Nat.add_zero]

end Lexeme

namespace Cursor

variable {before : List Char} {cursor : Cursor}

inductive Delivers (cursor : Cursor) : Except InvalidCharacter Token × Cursor → Prop where
  | ended {behind : Cursor} (skipped : IsGap cursor.rest ∨ IsUnclosed cursor.rest) :
    Delivers cursor (.ok ⟨.endOfInput, "", cursor.line + cursor.rest.count '\n'⟩, behind)
  | token {gap : List Char} {kind : TokenKind} {lexeme : String} {behind : Cursor}
    (parts : cursor.rest = gap ++ (lexeme.toList ++ behind.rest)) (isGap : IsGap gap)
    (longest : IsLongest kind lexeme.toList (lexeme.toList ++ behind.rest))
    (line : behind.line = cursor.line + gap.count '\n') :
    Delivers cursor (.ok ⟨kind, lexeme, cursor.line + gap.count '\n'⟩, behind)
  | invalid {gap tail : List Char} {c : Char} {behind : Cursor} (parts : cursor.rest = gap ++ c :: tail)
    (isGap : IsGap gap) (noGap : ¬ StartsGap (c :: tail)) (noLexeme : ¬ StartsLexeme (c :: tail)) :
    Delivers cursor (.error ⟨c, cursor.line + gap.count '\n'⟩, behind)

theorem delivers_next (cursor : Cursor) : Delivers cursor cursor.next := by
  have parts := Lexeme.gap_append .layout cursor.rest
  have passed := passed_gap .layout cursor.rest
  generalize split : Lexeme.gap .layout cursor.rest = both at parts passed
  obtain ⟨gap, text⟩ := both
  obtain ⟨here, shown, line, next⟩ := next_of_gap split
  rw [next]
  cases text with
  | nil =>
    have all : gap = cursor.rest := by simpa using parts
    have scanned : scan here = (.ok ⟨.endOfInput, "", here.line⟩, here) := by
      unfold scan
      rw [shown]
    rw [scanned, line, all]
    cases passed with
    | closed isGap _ => exact .ended (.inl (all ▸ isGap))
    | unclosed isUnclosed _ => exact .ended (.inr (all ▸ isUnclosed))
  | cons c tail =>
    -- An open comment would have left nothing.
    obtain ⟨isGap, noGap⟩ : IsGap gap ∧ ¬ StartsGap (c :: tail) := by
      cases passed with
      | closed isGap noGap => exact ⟨isGap, noGap⟩
      | unclosed _ empty => cases empty
    cases found : first? (c :: tail) with
    | some split =>
      obtain ⟨delivered, left, sameLine⟩ := scan_of_first? (shown.symm ▸ found)
      have lexeme := (first?_append found).1
      have both : scan here = (.ok ⟨split.kind, String.ofList split.lexeme, here.line⟩, (scan here).2) := by
        rw [← delivered]
      rw [both, line]
      refine .token ?_ isGap ?_ (sameLine.trans line)
      · rw [left, String.toList_ofList, lexeme, ← parts]
      · rw [left, String.toList_ofList, lexeme]
        exact isLongest_of_first? found
    | none =>
      have scanned : scan here = (.error ⟨c, here.line⟩, here.advanceBy 1) := by
        unfold scan
        rw [shown]
        dsimp only
        rw [found]
      rw [scanned, line]
      exact .invalid parts.symm isGap noGap (not_startsLexeme found)

end Cursor

namespace TokenList.Partition

theorem nil {list : TokenList} {before rest : List Char} (ends : list.Ends before [] rest) :
    list.Partition before rest [] rest where
  whole := rfl
  stands := by simp
  ends := by simpa using ends

theorem cons {list : TokenList} {before text rest : List Char} {pieces : List Piece}
    {piece : Piece} (partition : list.Partition (before ++ piece.text) text pieces rest)
    (stands : piece.Stands before text) :
    Partition ⟨piece.token :: list.tokens, list.failure⟩ before (piece.text ++ text) (piece :: pieces)
      rest where
  whole := by rw [partition.whole, List.flatMap_cons, List.append_assoc]
  stands := by
    intro front other back same
    cases front with
    | nil =>
      cases same
      rw [← partition.whole, List.flatMap_nil, List.append_nil]
      exact stands
    | cons first front =>
      cases same
      rw [List.flatMap_cons, ← List.append_assoc]
      exact partition.stands front other back rfl
  ends := by
    have ends := partition.ends
    unfold Ends at ends ⊢
    rw [List.flatMap_cons, ← List.append_assoc]
    dsimp only
    split at ends
    next => exact ⟨ends.1, congrArg (piece.token :: ·) ends.2⟩
    next => exact ⟨congrArg (piece.token :: ·) ends.1, ends.2⟩

end TokenList.Partition

theorem Cursor.exists_partition (cursor : Cursor) (before : List Char)
    (line : cursor.line = lineBehind before) :
    ∃ pieces rest, cursor.tokens.1.Partition before cursor.rest pieces rest := by
  fun_induction Cursor.tokens cursor generalizing before with
  | case1 cursor failure behind delivered =>
    have delivers := cursor.delivers_next
    rw [delivered] at delivers
    cases delivers with
    | @invalid gap tail c _ parts isGap noGap noLexeme =>
      refine ⟨[], cursor.rest, .nil ⟨rfl, gap, tail, parts, isGap, noGap, noLexeme, ?_⟩⟩
      rw [lineBehind_append, line]
  | case2 cursor token behind delivered isEnd =>
    have delivers := cursor.delivers_next
    rw [delivered] at delivers
    cases delivers with
    | ended skipped =>
      refine ⟨[], cursor.rest, .nil ⟨skipped, ?_⟩⟩
      rw [lineBehind_append, line]
      rfl
    | token parts isGap longest => exact absurd isEnd longest.lexed.notEnd
  | case3 cursor token behind delivered notEnd shorter list last tail ih =>
    have delivers := cursor.delivers_next
    rw [delivered] at delivers
    cases delivers with
    | ended skipped => exact absurd rfl notEnd
    | @token gap kind lexeme _ parts isGap longest reached =>
      let piece : Piece := ⟨gap, ⟨kind, lexeme, cursor.line + gap.count '\n'⟩⟩
      have later : behind.line = lineBehind (before ++ piece.text) := by
        rw [reached, line, ← lineBehind_append, Piece.text, ← List.append_assoc]
        exact (longest.lexed.lineBehind_append _).symm
      obtain ⟨pieces, rest, partition⟩ := ih (before ++ piece.text) later
      rw [tail] at partition
      have stands : piece.Stands before behind.rest :=
        ⟨isGap, by rw [lineBehind_append, ← line], longest⟩
      have longer := partition.cons stands
      refine ⟨piece :: pieces, rest, ?_⟩
      rw [parts, ← List.append_assoc]
      exact longer

/-- Nothing of a text is lost. Its tokens and the gaps in front of them make it up, with the rest behind
them: a gap that may end in an open comment, or an invalid character behind a gap. -/
theorem tokenize_partition (source : String) :
    ∃ pieces rest, (tokenize source).Partition [] source.toList pieces rest :=
  Cursor.exists_partition (Cursor.ofSource source.toList) [] rfl

end Pascalet
