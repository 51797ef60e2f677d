import Pascalet.Text.Lines

namespace Pascalet.Text

def isInk (c : Char) : Bool :=
  33 ≤ c.toNat && c.toNat ≤ 126

theorem isInk_iff {c : Char} : isInk c = true ↔ 33 ≤ c.toNat ∧ c.toNat ≤ 126 := by
  simp [isInk]

theorem isBlank_of_isInk {c : Char} (ink : isInk c = true) : isBlank c = false := by
  have bounds := isInk_iff.mp ink
  rw [isBlank, Bool.eq_false_iff]
  intro blank
  obtain ⟨range, found, _⟩ := inRanges_iff.mp blank
  simp only [blankRanges, List.mem_cons, List.not_mem_nil, or_false] at found
  rcases found with rfl | rfl | rfl | rfl | rfl | rfl | rfl | rfl | rfl | rfl <;> omega

theorem isBlank_of_isLineBreak {c : Char} (lineBreak : isLineBreak c = true) :
    isBlank c = true := by
  obtain ⟨range, found, inside⟩ := inRanges_iff.mp lineBreak
  simp only [lineBreakRanges, List.mem_cons, List.not_mem_nil, or_false] at found
  apply inRanges_iff.mpr
  rcases found with rfl | rfl | rfl | rfl
  · exact ⟨(0x9, 0xD), by decide, by dsimp at inside ⊢; omega⟩
  · exact ⟨(0x1C, 0x20), by decide, by dsimp at inside ⊢; omega⟩
  · exact ⟨(0x85, 0x85), by decide, inside⟩
  · exact ⟨(0x2028, 0x2029), by decide, inside⟩

/-- A text without blanks. -/
def Solid (text : List Char) : Prop :=
  ∀ c ∈ text, isBlank c = false

@[simp]
theorem solid_nil : Solid [] := by
  simp [Solid]

@[simp]
theorem solid_cons {c : Char} {text : List Char} :
    Solid (c :: text) ↔ isBlank c = false ∧ Solid text :=
  List.forall_mem_cons

@[simp]
theorem solid_append {front back : List Char} : Solid (front ++ back) ↔ Solid front ∧ Solid back :=
  List.forall_mem_append

theorem solid_of_all {text : List Char} (checked : text.all (fun c => isBlank c == false) = true) :
    Solid text := by
  simpa [Solid] using checked

theorem solid_of_ink {text : List Char} (ink : ∀ c ∈ text, isInk c = true) : Solid text :=
  fun c found => isBlank_of_isInk (ink c found)

theorem Solid.isLineBreak {text : List Char} (solid : Solid text) :
    ∀ c ∈ text, isLineBreak c = false := by
  intro c found
  rw [Bool.eq_false_iff]
  intro lineBreak
  have blank := isBlank_of_isLineBreak lineBreak
  rw [solid c found] at blank
  cases blank

theorem foldCrLf_eq_self {text : List Char} (clear : ∀ c ∈ text, c ≠ '\r') :
    foldCrLf text = text := by
  fun_induction foldCrLf text with
  | case1 rest ih => exact absurd rfl (clear '\r' List.mem_cons_self)
  | case2 c rest other ih =>
    rw [ih fun d found => clear d (List.mem_cons_of_mem c found)]
  | case3 => rfl

theorem unifyNewlines_eq_self {text : List Char} (clear : ∀ c ∈ text, c ≠ '\r') :
    unifyNewlines text = text := by
  rw [unifyNewlines, foldCrLf_eq_self clear]
  have kept : ∀ c ∈ text, (if c = '\r' then '\n' else c) = c :=
    fun c found => if_neg (clear c found)
  rw [List.map_congr_left kept, List.map_id']

theorem trim_eq_self {text : List Char} (first : ∀ c ∈ text.head?, isBlank c = false)
    (last : ∀ c ∈ text.getLast?, isBlank c = false) : trim text = text := by
  unfold trim
  have front : text.dropWhile isBlank = text := by
    cases text with
    | nil => rfl
    | cons c rest => simp [first c rfl]
  have back : text.reverse.dropWhile isBlank = text.reverse := by
    rw [List.getLast?_eq_head?_reverse] at last
    cases reversed : text.reverse with
    | nil => rfl
    | cons c rest => simp [last c (by rw [reversed]; rfl)]
  rw [front, back, List.reverse_reverse]

theorem Solid.trim_eq_self {text : List Char} (solid : Solid text) : trim text = text :=
  Text.trim_eq_self (fun c found => solid c (List.mem_of_mem_head? found))
    (fun c found => solid c (List.mem_of_getLast? found))

theorem isBlank_head_dropWhile {text : List Char} :
    ∀ c ∈ (text.dropWhile isBlank).head?, isBlank c = false := by
  intro c found
  have first := List.head?_dropWhile_not isBlank text
  rw [Option.mem_def.mp found] at first
  exact first

theorem isBlank_getLast_trim {text : List Char} :
    ∀ c ∈ (trim text).getLast?, isBlank c = false := by
  intro c found
  rw [trim, List.getLast?_reverse] at found
  exact isBlank_head_dropWhile c found

theorem isBlank_head_trim {text : List Char} : ∀ c ∈ (trim text).head?, isBlank c = false := by
  intro c found
  -- What is cut off behind leaves a front part of what is cut off in front.
  have front : trim text <+: text.dropWhile isBlank := by
    have suffix := List.dropWhile_suffix (l := (text.dropWhile isBlank).reverse) isBlank
    have cut := List.reverse_prefix.mpr suffix
    rwa [List.reverse_reverse] at cut
  obtain ⟨rest, split⟩ := front
  apply @isBlank_head_dropWhile text
  rw [← split, List.head?_append, Option.mem_def.mp found]
  rfl

theorem splitWord_eq_self {word : List Char} (solid : Solid word) : splitWord word = (word, []) := by
  have kept : ∀ c ∈ word, (!isBlank c) = true := by simpa [Solid] using solid
  have whole := @List.takeWhile_append_of_pos _ _ word [] kept
  rw [List.append_nil, List.takeWhile_nil, List.append_nil] at whole
  have nothing := @List.dropWhile_append_of_pos _ _ word [] kept
  rw [List.append_nil, List.dropWhile_nil] at nothing
  rw [splitWord, whole, nothing]
  rfl

theorem splitWord_append {word operand : List Char} (solid : Solid word)
    (first : ∀ c ∈ operand.head?, isBlank c = false) :
    splitWord (word ++ ' ' :: operand) = (word, operand) := by
  have kept : ∀ c ∈ word, (!isBlank c) = true := by simpa [Solid] using solid
  have space : isBlank ' ' = true := by decide
  rw [splitWord, List.takeWhile_append_of_pos kept, List.dropWhile_append_of_pos kept]
  cases operand with
  | nil => simp [space]
  | cons c rest => simp [space, first c rfl]

theorem trim_splitWord {text : List Char} :
    trim (splitWord (trim text)).2 = (splitWord (trim text)).2 := by
  have suffix : (splitWord (trim text)).2 <:+ trim text :=
    (List.dropWhile_suffix _).trans (List.dropWhile_suffix _)
  obtain ⟨front, split⟩ := suffix
  apply trim_eq_self isBlank_head_dropWhile
  intro c found
  have last : (splitWord (trim text)).2.getLast? = some c := found
  apply @isBlank_getLast_trim text
  rw [← split, List.getLast?_append, last]
  rfl

end Pascalet.Text
