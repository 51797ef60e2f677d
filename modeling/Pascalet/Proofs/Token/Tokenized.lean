import Pascalet.Proofs.Numeral.Decimal
import Pascalet.Token.Cursor

namespace Pascalet

namespace Lexeme

open Text Numeral

theorem number_isDecimal {c : Char} (rest : List Char) (digit : isAsciiDigit c = true) :
    IsDecimal (number (c :: rest)).lexeme := by
  have nonempty : (c :: rest).takeWhile isAsciiDigit ≠ [] := by simp [digit]
  unfold number
  dsimp only
  split
  next following tail point =>
    split
    · exact .fraction nonempty List.all_takeWhile List.all_takeWhile
    · exact .whole nonempty List.all_takeWhile
  · exact .whole nonempty List.all_takeWhile

theorem isDecimal_of_first? {text : List Char} {split : Split} (found : first? text = some split)
    (literal : split.kind.isLiteral = true) : IsDecimal split.lexeme := by
  cases text with
  | nil => cases found
  | cons c rest =>
    simp only [first?] at found
    split at found
    next =>
      cases found
      unfold word at literal
      dsimp only at literal
      split at literal <;> cases literal
    · split at found
      next digit =>
        cases found
        exact number_isDecimal rest digit
      · unfold symbol? at found
        split at found <;> cases found <;> cases literal

end Lexeme

def Token.IsPlain (token : Token) : Prop :=
  token.kind.isLiteral = true → Numeral.IsDecimal token.lexeme.toList

namespace Cursor

theorem isPlain_of_next {cursor : Cursor} {token : Token} (delivered : cursor.next.1 = .ok token) :
    token.IsPlain := by
  intro literal
  dsimp only [next] at delivered
  unfold scan at delivered
  split at delivered
  · cases delivered
    cases literal
  · split at delivered
    next found lexeme =>
      cases delivered
      rw [String.toList_ofList]
      exact Lexeme.isDecimal_of_first? lexeme literal
    · cases delivered

theorem isPlain_of_mem_tokens (cursor : Cursor) :
    ∀ token ∈ cursor.tokens.1.tokens, token.IsPlain := by
  fun_induction Cursor.tokens cursor with
  | case1 cursor failure behind delivered => simp
  | case2 cursor token behind delivered notEnd =>
    intro found member
    rw [List.mem_singleton.mp member]
    exact isPlain_of_next (by rw [delivered])
  | case3 cursor token behind delivered notEnd shorter list last tail ih =>
    intro found member
    rcases List.mem_cons.mp member with rfl | later
    · exact isPlain_of_next (by rw [delivered])
    · exact ih found (by rwa [tail])

theorem exists_endOfInput (cursor : Cursor) (complete : cursor.tokens.1.failure = none) :
    ∃ front last, cursor.tokens.1.tokens = front ++ [last] ∧ last.kind = .endOfInput := by
  fun_induction Cursor.tokens cursor with
  | case1 cursor failure behind delivered => cases complete
  | case2 cursor token behind delivered isEnd => exact ⟨[], token, rfl, isEnd⟩
  | case3 cursor token behind delivered notEnd shorter list last tail ih =>
    obtain ⟨front, final, tokens, isEnd⟩ := ih (by rwa [tail])
    rw [tail] at tokens
    exact ⟨token :: front, final, congrArg (token :: ·) tokens, isEnd⟩

end Cursor

end Pascalet
