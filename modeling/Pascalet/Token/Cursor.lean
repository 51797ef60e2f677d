import Pascalet.Token.Lexeme

namespace Pascalet

structure InvalidCharacter where
  character : Char
  line : Nat
deriving DecidableEq

/-- A place in source text: where the latest token starts, how far the text is read, and the line
that reading has reached. -/
structure Cursor where
  source : List Char
  start : Nat
  current : Nat
  line : Nat
  rest : List Char
  placed : rest = source.drop current

namespace Cursor

def ofSource (source : List Char) : Cursor :=
  { source, start := 0, current := 0, line := 1, rest := source, placed := rfl }

def reset (cursor : Cursor) : Cursor :=
  ofSource cursor.source

def atEnd (cursor : Cursor) : Bool :=
  cursor.rest.isEmpty

def peek? (cursor : Cursor) : Option Char :=
  cursor.rest[0]?

def peekNext? (cursor : Cursor) : Option Char :=
  cursor.rest[1]?

def advanceBy (cursor : Cursor) (count : Nat) : Cursor :=
  { cursor with
    current := cursor.current + (cursor.rest.take count).length
    rest := cursor.rest.drop count
    placed := by
      rw [cursor.placed, List.drop_drop, List.length_take]
      by_cases inside : count ≤ (cursor.source.drop cursor.current).length
      · rw [Nat.min_eq_left inside]
      · rw [Nat.min_eq_right (by omega), List.drop_eq_nil_of_le (by simp at inside; omega),
          List.drop_eq_nil_of_le (by simp; omega)] }

def passOver (cursor : Cursor) (text : List Char) : Cursor :=
  { cursor.advanceBy text.length with line := cursor.line + text.count '\n' }

def advance? (cursor : Cursor) : Option (Char × Cursor) :=
  cursor.peek?.map fun c => (c, cursor.advanceBy 1)

def accept (cursor : Cursor) (expected : String) : Bool × Cursor :=
  if cursor.peek?.map String.singleton = some expected then (true, cursor.advanceBy 1)
  else (false, cursor)

def skipGap (cursor : Cursor) : Cursor :=
  cursor.passOver (Lexeme.gap .layout cursor.rest).1

/-- Moves behind the first occurrence of a terminator, or to the end. Lines are counted in front of
the terminator only. -/
def skipThrough (cursor : Cursor) (terminator : String) : Cursor :=
  (cursor.passOver (Lexeme.upTo terminator.toList cursor.rest).1).advanceBy terminator.length

/-- The token at the cursor. At the end this is always the end of input; an invalid character is
passed over. -/
def scan (cursor : Cursor) : Except InvalidCharacter Token × Cursor :=
  match cursor.rest with
  | [] => (.ok ⟨.endOfInput, "", cursor.line⟩, cursor)
  | c :: rest =>
    match Lexeme.first? (c :: rest) with
    | some found =>
      (.ok ⟨found.kind, String.ofList found.lexeme, cursor.line⟩, cursor.advanceBy found.lexeme.length)
    | none => (.error ⟨c, cursor.line⟩, cursor.advanceBy 1)

def next (cursor : Cursor) : Except InvalidCharacter Token × Cursor :=
  let here := cursor.skipGap
  scan { here with start := here.current }

theorem advanceBy_rest (cursor : Cursor) (count : Nat) :
    (cursor.advanceBy count).rest = cursor.rest.drop count := rfl

theorem passOver_rest (cursor : Cursor) (text : List Char) :
    (cursor.passOver text).rest = cursor.rest.drop text.length := rfl

theorem scan_rest_lt {cursor : Cursor} (more : cursor.rest ≠ []) :
    (scan cursor).2.rest.length < cursor.rest.length := by
  unfold scan
  split
  next empty => exact absurd empty more
  next c rest nonempty =>
    split
    next found lexeme =>
      have parts := Lexeme.first?_append lexeme
      have positive := List.length_pos_iff.mpr parts.2
      simp only [advanceBy_rest, List.length_drop, nonempty, List.length_cons]
      omega
    · simp [advanceBy_rest, nonempty]

theorem skipGap_rest_le (cursor : Cursor) : cursor.skipGap.rest.length ≤ cursor.rest.length := by
  simp [skipGap, passOver_rest]

theorem next_rest_lt {cursor : Cursor} {token : Token} (delivered : (next cursor).1 = .ok token)
    (notEnd : token.kind ≠ .endOfInput) : (next cursor).2.rest.length < cursor.rest.length := by
  refine Nat.lt_of_lt_of_le (scan_rest_lt ?_) (skipGap_rest_le cursor)
  intro empty
  apply notEnd
  dsimp only [next] at delivered
  unfold scan at delivered
  split at delivered
  · cases delivered
    rfl
  next nonempty => exact absurd (nonempty.symm.trans empty) (List.cons_ne_nil _ _)

end Cursor

/-- What a text yields: its tokens up to the end of input, or up to an invalid character. -/
structure TokenList where
  tokens : List Token
  failure : Option InvalidCharacter

def Cursor.tokens (cursor : Cursor) : TokenList × Cursor :=
  match delivered : cursor.next with
  | (.error failure, behind) => (⟨[], some failure⟩, behind)
  | (.ok token, behind) =>
    if notEnd : token.kind = .endOfInput then (⟨[token], none⟩, behind)
    else
      have shorter : behind.rest.length < cursor.rest.length := by
        have lt := @next_rest_lt cursor token (by rw [delivered]) notEnd
        rwa [delivered] at lt
      let (list, last) := behind.tokens
      (⟨token :: list.tokens, list.failure⟩, last)
termination_by cursor.rest.length

def tokenize (source : String) : TokenList :=
  (Cursor.ofSource source.toList).tokens.1

end Pascalet
