import Pascalet.Proofs.Token.Spelling
import Pascalet.Token.Cursor

namespace Pascalet

namespace Lexeme

/-- The text behind a token: further tokens, each of them behind a gap, and a gap at the end that may be
empty. -/
inductive Continues : List (TokenKind × String) → List Char → Prop where
  | done {gap : List Char} (isGap : IsGap gap) : Continues [] gap
  | token {kind : TokenKind} {lexeme : String} {tokens : List (TokenKind × String)}
    {gap text : List Char} (isGap : IsGap gap) (apart : gap ≠ [])
    (lexed : IsLexeme kind lexeme.toList) (rest : Continues tokens text) :
    Continues ((kind, lexeme) :: tokens) (gap ++ (lexeme.toList ++ text))

/-- The texts in which a list of tokens can be written. Only in front of the first token and behind the
last one a gap may be empty. -/
inductive Renders : List (TokenKind × String) → List Char → Prop where
  | blank {gap : List Char} (isGap : IsGap gap) : Renders [] gap
  | text {kind : TokenKind} {lexeme : String} {tokens : List (TokenKind × String)}
    {gap text : List Char} (isGap : IsGap gap) (lexed : IsLexeme kind lexeme.toList)
    (rest : Continues tokens text) :
    Renders ((kind, lexeme) :: tokens) (gap ++ (lexeme.toList ++ text))

theorem IsLexeme.notEnd {kind : TokenKind} {lexeme : List Char} (lexed : IsLexeme kind lexeme) :
    kind ≠ .endOfInput := by
  cases lexed with
  | @sign _ spelling listed =>
    have none : ∀ sign ∈ signs, sign.1 ≠ .endOfInput := by decide
    exact none (kind, spelling) listed
  | _ => nofun

theorem Continues.separated {tokens : List (TokenKind × String)} {text : List Char}
    (continues : Continues tokens text) : Separated text := by
  cases continues with
  | done isGap =>
    rw [← List.append_nil text]
    exact isGap.separated fun _ => rfl
  | token isGap apart lexed rest => exact isGap.separated fun empty => absurd empty apart

end Lexeme

namespace Cursor

open Lexeme

variable {cursor behind : Cursor}

theorem scan_of_first? {found : Split} (lexed : first? cursor.rest = some found) :
    (scan cursor).1 = .ok ⟨found.kind, String.ofList found.lexeme, cursor.line⟩ ∧
      (scan cursor).2.rest = found.rest ∧ (scan cursor).2.line = cursor.line := by
  unfold scan
  split
  next empty =>
    rw [empty] at lexed
    cases lexed
  next c rest text =>
    rw [text] at lexed
    rw [lexed]
    refine ⟨rfl, ?_, rfl⟩
    rw [advanceBy_rest, text, ← (first?_append lexed).1, List.drop_left]

theorem next_of_gap {gap text : List Char} (skipped : Lexeme.gap .layout cursor.rest = (gap, text)) :
    ∃ here : Cursor, here.rest = text ∧ here.line = cursor.line + gap.count '\n' ∧
      cursor.next = scan here := by
  have parts := Lexeme.gap_append .layout cursor.rest
  rw [skipped] at parts
  refine ⟨{ cursor.skipGap with start := cursor.skipGap.current }, ?_, ?_, rfl⟩
  · show cursor.skipGap.rest = text
    rw [skipGap, passOver_rest, skipped, ← parts, List.drop_left]
  · show cursor.line + (Lexeme.gap .layout cursor.rest).1.count '\n' = _
    rw [skipped]

theorem tokens_of_end {token : Token} (delivered : cursor.next = (.ok token, behind))
    (isEnd : token.kind = .endOfInput) : cursor.tokens.1 = ⟨[token], none⟩ := by
  rw [Cursor.tokens]
  split
  next failure other failed =>
    rw [delivered] at failed
    cases failed
  next found other succeeded =>
    rw [delivered] at succeeded
    cases succeeded
    rw [dif_pos isEnd]

theorem tokens_of_token {token : Token} (delivered : cursor.next = (.ok token, behind))
    (notEnd : token.kind ≠ .endOfInput) :
    cursor.tokens.1 = ⟨token :: behind.tokens.1.tokens, behind.tokens.1.failure⟩ := by
  rw [Cursor.tokens]
  split
  next failure other failed =>
    rw [delivered] at failed
    cases failed
  next found other succeeded =>
    rw [delivered] at succeeded
    cases succeeded
    rw [dif_neg notEnd]

theorem tokens_of_isGap (isGap : IsGap cursor.rest) :
    ∃ line, cursor.tokens.1 = ⟨[⟨.endOfInput, "", line⟩], none⟩ := by
  have skipped := isGap.gap_append []
  rw [List.append_nil, gap.eq_8, taking, List.append_nil] at skipped
  obtain ⟨here, empty, _, next⟩ := next_of_gap skipped
  have scanned : scan here = (.ok ⟨.endOfInput, "", here.line⟩, here) := by
    unfold scan
    rw [empty]
  exact ⟨here.line, tokens_of_end (next.trans scanned) rfl⟩

theorem tokens_of_isLexeme {kind : TokenKind} {lexeme : String} {gap text : List Char}
    (isGap : IsGap gap) (lexed : IsLexeme kind lexeme.toList) (separated : Separated text)
    (rest : cursor.rest = gap ++ (lexeme.toList ++ text)) :
    ∃ (line : Nat) (behind : Cursor), behind.rest = text ∧
      cursor.tokens.1 =
        ⟨⟨kind, lexeme, line⟩ :: behind.tokens.1.tokens, behind.tokens.1.failure⟩ := by
  have skipped : Lexeme.gap .layout cursor.rest = (gap, lexeme.toList ++ text) := by
    rw [rest, isGap.gap_append, lexed.gap_append separated, taking, List.append_nil]
  obtain ⟨here, shown, _, next⟩ := next_of_gap skipped
  obtain ⟨delivered, left, _⟩ := scan_of_first? (shown ▸ lexed.first?_append separated)
  rw [String.ofList_toList] at delivered
  have both : cursor.next = (.ok ⟨kind, lexeme, here.line⟩, (scan here).2) := by
    rw [next, ← delivered]
  exact ⟨here.line, (scan here).2, left, tokens_of_token both lexed.notEnd⟩

theorem tokens_of_continues {tokens : List (TokenKind × String)}
    (continues : Continues tokens cursor.rest) :
    cursor.tokens.1.failure = none ∧
      cursor.tokens.1.tokens.map (fun token => (token.kind, token.lexeme)) =
        tokens ++ [(.endOfInput, "")] := by
  generalize source : cursor.rest = text at continues
  induction continues generalizing cursor with
  | done isGap =>
    obtain ⟨line, same⟩ := tokens_of_isGap (source ▸ isGap)
    rw [same]
    exact ⟨rfl, rfl⟩
  | token isGap apart lexed rest ih =>
    obtain ⟨line, behind, text, same⟩ := tokens_of_isLexeme isGap lexed rest.separated source
    obtain ⟨complete, others⟩ := ih text
    rw [same]
    exact ⟨complete, congrArg (_ :: ·) others⟩

end Cursor

/-- A text in which tokens are written with gaps between them is cut into just these tokens, and the
end of input behind them. -/
theorem tokenize_rendering {tokens : List (TokenKind × String)} {source : String}
    (renders : Lexeme.Renders tokens source.toList) :
    (tokenize source).failure = none ∧
      (tokenize source).tokens.map (fun token => (token.kind, token.lexeme)) =
        tokens ++ [(.endOfInput, "")] := by
  have start : (Cursor.ofSource source.toList).rest = source.toList := rfl
  rw [← start] at renders
  unfold tokenize
  generalize text : (Cursor.ofSource source.toList).rest = characters at renders
  cases renders with
  | blank isGap => exact Cursor.tokens_of_continues (text ▸ .done isGap)
  | text isGap lexed rest =>
    obtain ⟨line, behind, left, same⟩ := Cursor.tokens_of_isLexeme isGap lexed rest.separated text
    obtain ⟨complete, others⟩ := Cursor.tokens_of_continues (left ▸ rest)
    rw [same]
    exact ⟨complete, congrArg (_ :: ·) others⟩

/-- Comments next to a slash and to a number, with openers and stars inside. -/
theorem tokenize_rendering_comments :
    Lexeme.Renders [(.identifier, "x"), (.operator .divide, "/"), (.realLiteral, "2.5"),
      (.keyword .beginWord, "BeGin"), (.dot, ".")]
      "\x7ba\x7dx/*\x7b/***///**/2.5\x7b/*\x7dBeGin\n.".toList ∧
    (tokenize "\x7ba\x7dx/*\x7b/***///**/2.5\x7b/*\x7dBeGin\n.").tokens.map
        (fun token => (token.kind, token.lexeme)) =
      [(.identifier, "x"), (.operator .divide, "/"), (.realLiteral, "2.5"),
        (.keyword .beginWord, "BeGin"), (.dot, "."), (.endOfInput, "")] := by
  have lastDot : Lexeme.Continues [(.dot, ".")] ("\n".toList ++ (".".toList ++ [])) :=
    .token (.blank (by decide) .empty) (by decide) (.sign (by decide)) (.done .empty)
  have fromWord : Lexeme.Continues [(.keyword .beginWord, "BeGin"), (.dot, ".")] _ :=
    .token (@Lexeme.IsGap.braceComment ['/', '*'] [] (by decide) .empty) (by decide)
      (.keyword (by decide)) lastDot
  have fromNumber : Lexeme.Continues [(.realLiteral, "2.5"), (.keyword .beginWord, "BeGin"),
      (.dot, ".")] _ :=
    .token (@Lexeme.IsGap.starComment [] [] (by decide) .empty) (by decide)
      (@Lexeme.IsLexeme.real ['2'] ['5'] (by decide) (List.forall_mem_singleton.mpr (by decide))
        (by decide) (List.forall_mem_singleton.mpr (by decide))) fromWord
  have fromSlash : Lexeme.Continues [(.operator .divide, "/"), (.realLiteral, "2.5"),
      (.keyword .beginWord, "BeGin"), (.dot, ".")] _ :=
    .token (@Lexeme.IsGap.starComment ['\x7b', '/', '*', '*'] [] (by decide) .empty) (by decide)
      (.sign (by decide)) fromNumber
  have renders : Lexeme.Renders [(.identifier, "x"), (.operator .divide, "/"), (.realLiteral, "2.5"),
      (.keyword .beginWord, "BeGin"), (.dot, ".")]
      "\x7ba\x7dx/*\x7b/***///**/2.5\x7b/*\x7dBeGin\n.".toList :=
    .text (@Lexeme.IsGap.braceComment ['a'] [] (by decide) .empty)
      (@Lexeme.IsLexeme.name 'x' [] (by decide) (by simp) fun word => by cases word <;> decide)
      fromSlash
  exact ⟨renders, (tokenize_rendering renders).2⟩

end Pascalet
