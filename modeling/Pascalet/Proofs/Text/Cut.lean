import Pascalet.Proofs.Text.Blanks
import Pascalet.Proofs.Text.Segments

namespace Pascalet.Text

/-- What can end a line before some rest of a text: a carriage return and a line feed, or any other
line break. -/
inductive Ending : (ending rest : List Char) → Prop where
  | pair (rest : List Char) : Ending ['\r', '\n'] rest
  | single {c : Char} {rest : List Char} (lineBreak : isLineBreak c = true)
    (alone : c = '\r' → rest.head? ≠ some '\n') : Ending [c] rest

/-- A text cut at its line breaks. There is no line behind the last line break unless something stands
on it. -/
inductive Cut : List Char → List (List Char) → Prop where
  | none : Cut [] []
  | last {line : List Char} (present : line ≠ []) (clear : ∀ c ∈ line, isLineBreak c = false) :
    Cut line [line]
  | more {line ending rest : List Char} {lines : List (List Char)}
    (clear : ∀ c ∈ line, isLineBreak c = false) (ended : Ending ending rest) (behind : Cut rest lines) :
    Cut (line ++ ending ++ rest) (line :: lines)

theorem foldCrLf_cons {c : Char} {rest : List Char} (alone : c = '\r' → rest.head? ≠ some '\n') :
    foldCrLf (c :: rest) = c :: foldCrLf rest := by
  rw [foldCrLf]
  rintro others rfl rfl
  exact alone rfl rfl

theorem foldCrLf_append {line : List Char} (clear : ∀ c ∈ line, isLineBreak c = false)
    (rest : List Char) : foldCrLf (line ++ rest) = line ++ foldCrLf rest := by
  induction line with
  | nil => rfl
  | cons c line ih =>
    rw [List.forall_mem_cons] at clear
    have other : c ≠ '\r' := by
      rintro rfl
      exact absurd clear.1 (by decide)
    rw [List.cons_append, foldCrLf_cons fun same => absurd same other, ih clear.2]
    rfl

theorem objectLines_of_ending {line ending rest : List Char}
    (clear : ∀ c ∈ line, isLineBreak c = false) (ended : Ending ending rest) :
    objectLines (line ++ ending ++ rest) = line :: objectLines rest := by
  rw [objectLines, List.append_assoc, foldCrLf_append clear]
  cases ended with
  | pair => exact segments_append_cons clear (by decide) (foldCrLf rest)
  | single lineBreak alone =>
    rw [List.singleton_append, foldCrLf_cons alone]
    exact segments_append_cons clear lineBreak (foldCrLf rest)

theorem objectLines_of_clear {line : List Char} (clear : ∀ c ∈ line, isLineBreak c = false)
    (present : line ≠ []) : objectLines line = [line] := by
  have same := foldCrLf_append clear []
  rw [List.append_nil, foldCrLf, List.append_nil] at same
  rw [objectLines, same, segments_eq_singleton clear present]

theorem exists_ending {c : Char} (lineBreak : isLineBreak c = true) (rest : List Char) :
    ∃ ending others, Ending ending others ∧ c :: rest = ending ++ others := by
  by_cases pair : c = '\r' ∧ rest.head? = some '\n'
  · obtain ⟨rfl, first⟩ := pair
    obtain ⟨others, rfl⟩ := List.head?_eq_some_iff.mp first
    exact ⟨_, others, .pair others, rfl⟩
  · exact ⟨[c], rest, .single lineBreak fun same first => pair ⟨same, first⟩, rfl⟩

theorem Cut.eq_objectLines {text : List Char} {lines : List (List Char)} (cut : Cut text lines) :
    lines = objectLines text := by
  induction cut with
  | none => rfl
  | last present clear => exact (objectLines_of_clear clear present).symm
  | more clear ended _ ih => rw [objectLines_of_ending clear ended, ih]

theorem cut_objectLines (text : List Char) : Cut text (objectLines text) := by
  obtain ⟨length, bound⟩ : ∃ length, text.length ≤ length := ⟨_, Nat.le_refl _⟩
  induction length generalizing text with
  | zero =>
    rw [List.length_eq_zero_iff.mp (Nat.le_zero.mp bound)]
    exact .none
  | succ length ih =>
    obtain ⟨line, clear, rfl | ⟨c, rest, found, rfl⟩⟩ := exists_line isLineBreak text
    · cases text with
      | nil => exact .none
      | cons c line =>
        have present := List.cons_ne_nil c line
        rw [objectLines_of_clear clear present]
        exact .last present clear
    · obtain ⟨ending, others, ended, split⟩ := exists_ending found rest
      rw [split, ← List.append_assoc, objectLines_of_ending clear ended]
      apply Cut.more clear ended
      apply ih
      have size := congrArg List.length split
      have nonempty : ending ≠ [] := by cases ended <;> simp
      have positive := List.length_pos_iff.mpr nonempty
      simp only [List.length_cons, List.length_append] at size bound
      omega

def Blanks (text : List Char) : Prop :=
  ∀ c ∈ text, isBlank c = true

theorem blanks_takeWhile (text : List Char) : Blanks (text.takeWhile isBlank) := by
  intro c found
  exact List.all_eq_true.mp List.all_takeWhile c found

theorem Blanks.dropWhile_append {before : List Char} (blanks : Blanks before) (text : List Char) :
    (before ++ text).dropWhile isBlank = text.dropWhile isBlank :=
  List.dropWhile_append_of_pos blanks

theorem dropWhile_eq_self {text : List Char} (first : ∀ c ∈ text.head?, isBlank c = false) :
    text.dropWhile isBlank = text := by
  cases text with
  | nil => rfl
  | cons c rest => simp [first c rfl]

theorem exists_margins (text : List Char) :
    ∃ before after, Blanks before ∧ Blanks after ∧ text = before ++ trim text ++ after := by
  refine ⟨text.takeWhile isBlank, ((text.dropWhile isBlank).reverse.takeWhile isBlank).reverse,
    blanks_takeWhile text, ?_, ?_⟩
  · intro c found
    exact blanks_takeWhile _ c (List.mem_reverse.mp found)
  · rw [trim, List.append_assoc, ← List.reverse_append, List.takeWhile_append_dropWhile,
      List.reverse_reverse, List.takeWhile_append_dropWhile]

theorem trim_margins {before core after : List Char} (front : Blanks before) (back : Blanks after)
    (trimmed : trim core = core) : trim (before ++ core ++ after) = core := by
  have first := @isBlank_head_trim core
  have last := @isBlank_getLast_trim core
  rw [trimmed] at first last
  have behind : Blanks after.reverse := fun c found => back c (List.mem_reverse.mp found)
  have cutFront : (before ++ core ++ after).dropWhile isBlank = (core ++ after).dropWhile isBlank := by
    rw [List.append_assoc, front.dropWhile_append]
  cases core with
  | nil =>
    have nothing := back.dropWhile_append []
    rw [List.append_nil] at nothing
    rw [trim, cutFront, List.nil_append, nothing]
    rfl
  | cons c rest =>
    have kept := @dropWhile_eq_self (c :: rest ++ after) first
    have lastKept := @dropWhile_eq_self (c :: rest).reverse
      (by rwa [← List.getLast?_eq_head?_reverse])
    rw [trim, cutFront, kept, List.reverse_append, behind.dropWhile_append, lastKept,
      List.reverse_reverse]

theorem exists_gap (text : List Char) : ∃ gap, Blanks gap ∧
    text = (splitWord text).1 ++ gap ++ (splitWord text).2 ∧
    ((splitWord text).2 ≠ [] → gap ≠ []) := by
  refine ⟨(text.dropWhile (!isBlank ·)).takeWhile isBlank, blanks_takeWhile _, ?_, ?_⟩
  · rw [splitWord, List.append_assoc, List.takeWhile_append_dropWhile,
      List.takeWhile_append_dropWhile]
  · intro present
    simp only [splitWord] at present
    have first := List.head?_dropWhile_not (!isBlank ·) text
    cases rest : text.dropWhile (!isBlank ·) with
    | nil => simp [rest] at present
    | cons c others =>
      rw [rest] at first
      have blank : isBlank c = true := by simpa using first
      simp [blank]

theorem splitWord_gap {word gap operand : List Char} (solid : Solid word) (between : Blanks gap)
    (apart : gap ≠ []) (first : ∀ c ∈ operand.head?, isBlank c = false) :
    splitWord (word ++ gap ++ operand) = (word, operand) := by
  have kept : ∀ c ∈ word, (!isBlank c) = true := by simpa [Solid] using solid
  obtain ⟨c, others, rfl⟩ := List.exists_cons_of_ne_nil apart
  have blank := between c List.mem_cons_self
  have left : (c :: others ++ operand).dropWhile (!isBlank ·) = c :: others ++ operand := by
    simp [blank]
  have none : (c :: others ++ operand).takeWhile (!isBlank ·) = [] := by
    simp [blank]
  rw [splitWord, List.append_assoc, List.takeWhile_append_of_pos kept,
    List.dropWhile_append_of_pos kept, left, none, between.dropWhile_append,
    dropWhile_eq_self first, List.append_nil]

end Pascalet.Text
