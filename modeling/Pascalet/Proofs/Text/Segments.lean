import Pascalet.Text.Lines

namespace Pascalet.Text

variable {ends : Char → Bool} {e : Char}

theorem segments_append_cons {line : List Char} (clear : ∀ c ∈ line, ends c = false)
    (ending : ends e = true) (rest : List Char) :
    segments ends (line ++ e :: rest) = line :: segments ends rest := by
  induction line with
  | nil => simp [segments, ending]
  | cons c line ih =>
    rw [List.forall_mem_cons] at clear
    simp [segments, clear.1, ih clear.2, consFirst]

theorem segments_eq_singleton {line : List Char} (clear : ∀ c ∈ line, ends c = false)
    (nonempty : line ≠ []) : segments ends line = [line] := by
  induction line with
  | nil => contradiction
  | cons c line ih =>
    rw [List.forall_mem_cons] at clear
    cases line with
    | nil => simp [segments, clear.1, consFirst]
    | cons d line =>
      rw [segments, ih clear.2 (List.cons_ne_nil d line)]
      simp [clear.1, consFirst]

theorem exists_line (ends : Char → Bool) (text : List Char) :
    ∃ line, (∀ c ∈ line, ends c = false) ∧
      (text = line ∨ ∃ e rest, ends e = true ∧ text = line ++ e :: rest) := by
  induction text with
  | nil => exact ⟨[], by simp, .inl rfl⟩
  | cons c text ih =>
    cases ending : ends c with
    | true => exact ⟨[], by simp, .inr ⟨c, text, ending, rfl⟩⟩
    | false =>
      obtain ⟨line, clear, whole | ⟨e, rest, found, split⟩⟩ := ih
      · exact ⟨c :: line, by simpa [ending] using clear, .inl (by rw [whole])⟩
      · exact ⟨c :: line, by simpa [ending] using clear, .inr ⟨e, rest, found, by rw [split]; rfl⟩⟩

theorem words_cons_of_blank {c : Char} (blank : isBlank c = true) (text : List Char) :
    words (c :: text) = words text := by
  simp [words, segments, blank]

theorem words_append_cons (first rest : List Char) (blank : isBlank e = true) :
    words (first ++ e :: rest) = words first ++ words rest := by
  -- The first line of words ends with the first blank, which is either inside `first` or is `e`.
  obtain ⟨length, bound⟩ : ∃ length, first.length ≤ length := ⟨_, Nat.le_refl _⟩
  induction length generalizing first with
  | zero =>
    rw [List.length_eq_zero_iff.mp (Nat.le_zero.mp bound)]
    exact words_cons_of_blank blank rest
  | succ length ih =>
    obtain ⟨word, clear, rfl | ⟨d, others, found, rfl⟩⟩ := exists_line isBlank first
    · rw [words, segments_append_cons clear blank, List.filter_cons]
      cases first with
      | nil => rfl
      | cons c word =>
        rw [words, segments_eq_singleton clear (List.cons_ne_nil c word)]
        rfl
    · rw [List.length_append, List.length_cons] at bound
      have shorter := ih others (by omega)
      simp only [words, List.append_assoc, List.cons_append] at shorter ⊢
      rw [segments_append_cons clear found, segments_append_cons clear found, List.filter_cons,
        List.filter_cons, shorter]
      split <;> rfl

/-- The words of a text are those of its lines. -/
theorem flatMap_words_segments (blanks : ∀ c, ends c = true → isBlank c = true) (text : List Char) :
    (segments ends text).flatMap words = words text := by
  obtain ⟨length, bound⟩ : ∃ length, text.length ≤ length := ⟨_, Nat.le_refl _⟩
  induction length generalizing text with
  | zero =>
    rw [List.length_eq_zero_iff.mp (Nat.le_zero.mp bound)]
    rfl
  | succ length ih =>
    obtain ⟨line, clear, rfl | ⟨e, rest, found, rfl⟩⟩ := exists_line ends text
    · cases text with
      | nil => rfl
      | cons c line =>
        rw [segments_eq_singleton clear (List.cons_ne_nil c line)]
        simp
    · rw [List.length_append, List.length_cons] at bound
      rw [segments_append_cons clear found, List.flatMap_cons, ih rest (by omega),
        words_append_cons line rest (blanks e found)]

theorem flatMap_words_inputLines (text : List Char) :
    (inputLines text).flatMap words = words text := by
  apply flatMap_words_segments
  intro c lineFeed
  rw [eq_of_beq lineFeed]
  decide

end Pascalet.Text
