import Pascalet.Proofs.Machine.Operations
import Pascalet.Proofs.Machine.Surroundings
import Pascalet.Session

namespace Pascalet

namespace Text

/-- A line of a text: it stands behind whole lines, and a line feed ends it unless the text does. -/
structure LineAt (text front line rest : List Char) : Prop where
  behindLines : front = [] ∨ ∃ earlier, front = earlier ++ ['\n']
  oneLine : '\n' ∉ line
  whole : text = front ++ line ++ '\n' :: rest ∨ text = front ++ line ∧ rest = []

theorem LineAt.cons {text front line rest first : List Char} (place : LineAt text front line rest) :
    LineAt (first ++ '\n' :: text) (first ++ '\n' :: front) line rest where
  behindLines := by
    right
    rcases place.behindLines with rfl | ⟨earlier, rfl⟩
    · exact ⟨first, rfl⟩
    · exact ⟨first ++ '\n' :: earlier, by simp⟩
  oneLine := place.oneLine
  whole := by
    rcases place.whole with rfl | ⟨rfl, rfl⟩
    · exact .inl (by simp)
    · exact .inr ⟨by simp, rfl⟩

end Text

namespace Input

/-- The input as it is when some words of the lines have been taken: the current line is behind those
passed by, and some of its words are gone. At first it is an empty line before them all. -/
def Stands (lines taken : List (List Char)) (input : Input) : Prop :=
  ∃ passed line gone, [] :: lines = passed ++ line :: input.lines ∧
    Text.words line = gone ++ input.words ∧ passed.flatMap Text.words ++ gone = taken

def StandsBehind (lines taken : List (List Char)) (word : List Char) (input : Input) : Prop :=
  ∃ passed line gone, lines = passed ++ line :: input.lines ∧
    Text.words line = gone ++ word :: input.words ∧ passed.flatMap Text.words ++ gone = taken

variable {lines taken : List (List Char)} {word : List Char} {input after : Input}

theorem StandsBehind.stands (behind : input.StandsBehind lines taken word) :
    input.Stands lines (taken ++ [word]) := by
  obtain ⟨passed, line, gone, split, here, rfl⟩ := behind
  refine ⟨[] :: passed, line, gone ++ [word], ?_, by simpa using here, ?_⟩
  · rw [split]
    rfl
  · simp [Text.words, Text.segments]

theorem Stands.of_cons {words later : List (List Char)}
    (stands : Stands lines taken ⟨word :: words, later⟩) :
    StandsBehind lines taken word ⟨words, later⟩ := by
  obtain ⟨passed, line, gone, split, here, rfl⟩ := stands
  cases passed with
  | nil =>
    cases split
    simp [Text.words, Text.segments] at here
  | cons first passed =>
    obtain ⟨rfl, rfl⟩ := List.cons.inj split
    exact ⟨passed, line, gone, rfl, here, by simp [Text.words, Text.segments]⟩

theorem Stands.pass {line : List Char} {later : List (List Char)}
    (stands : Stands lines taken ⟨[], line :: later⟩) :
    Stands lines taken ⟨Text.words line, later⟩ := by
  obtain ⟨passed, current, gone, split, here, rfl⟩ := stands
  refine ⟨passed ++ [current], line, [], by simpa using split, rfl, ?_⟩
  simp only [List.append_nil] at here
  simp [here]

theorem Stands.take (stands : input.Stands lines taken) (found : input.take = (some word, after)) :
    after.StandsBehind lines taken word := by
  obtain ⟨words, later⟩ := input
  simp only [Input.take] at found
  induction later generalizing words with
  | nil =>
    cases words with
    | nil => simp [takeFrom] at found
    | cons first words =>
      cases found
      exact stands.of_cons
  | cons next later ih =>
    cases words with
    | nil => exact ih (Text.words next) stands.pass found
    | cons first words =>
      cases found
      exact stands.of_cons

end Input

namespace Machine

end Machine

end Pascalet
