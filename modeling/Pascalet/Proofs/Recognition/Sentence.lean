import Pascalet.Proofs.Core.Errors
import Pascalet.Proofs.Layout.Program
import Pascalet.Proofs.Recognition.Accepted
import Pascalet.Proofs.Token.Tokenized

namespace Pascalet.Program

theorem exists_spells_of_advanceAll {source : String} {draft : Draft}
    {reached : List Goal × Draft} (complete : (tokenize source).failure = none)
    (met : Goal.advanceAll Goal.program (tokenize source).tokens draft = .ok reached) :
    ∃ tree : Tree.Program, tree.Spells (tokenize source).tokens := by
  obtain ⟨front, last, tokens, isEnd⟩ := Cursor.exists_endOfInput _ complete
  have spelled := Goal.isSentence_of_advanceAll (tokens ▸ met) isEnd
  rwa [← tokens] at spelled

theorem exists_spells_of_compile {source : String} {program : Program}
    (compiled : compile source = .ok program) :
    (tokenize source).failure = none ∧
      ∃ tree : Tree.Program, tree.Spells (tokenize source).tokens := by
  unfold compile ofTokens at compiled
  split at compiled
  · cases compiled
  next remaining draft met =>
    have complete : (tokenize source).failure = none := by
      split at compiled
      · cases compiled
      · assumption
      · cases compiled
    exact ⟨complete, exists_spells_of_advanceAll complete met⟩

theorem exists_of_any {ε α : Type} {result : Except ε α} {check : α → Bool}
    (checked : result.toOption.any check = true) :
    ∃ value, result = .ok value ∧ check value = true := by
  cases result with
  | error error => cases checked
  | ok value => exact ⟨value, rfl, checked⟩

theorem exists_core_of_compile {source : String} {program : Program} {tree : Tree.Program}
    (compiled : compile source = .ok program) (spells : tree.Spells (tokenize source).tokens) :
    ∃ core context, tree.resolve = .ok (core, context) ∧
      program = core.assemble tree.name.lexeme context := by
  rw [compile_eq spells (exists_spells_of_compile compiled).1] at compiled
  cases resolved : tree.resolve with
  | error error =>
    rw [resolved] at compiled
    cases compiled
  | ok pair =>
    rw [resolved] at compiled
    cases compiled
    exact ⟨pair.1, pair.2, rfl, rfl⟩

/-- Exactly the sentences of the grammar are taken: a text that compiles is one, and one either
compiles or has an error in its names. -/
theorem compile_recognizes_sentences {source : String}
    (complete : (tokenize source).failure = none) :
    ((∃ program, compile source = .ok program) → Tree.IsSentence (tokenize source).tokens) ∧
    (Tree.IsSentence (tokenize source).tokens →
      (∃ program, compile source = .ok program) ∨
        ∃ error, compile source = .error error ∧ error.isSemantic = true) := by
  constructor
  · rintro ⟨program, compiled⟩
    exact (exists_spells_of_compile compiled).2
  · rintro ⟨tree, spells⟩
    rw [compile_eq spells complete]
    cases resolved : tree.resolve with
    | error error => exact .inr ⟨error, rfl, tree.failsByNames error resolved⟩
    | ok pair => exact .inl ⟨_, rfl⟩

theorem compile_recognizes_sentences_loop :
    (tokenize "program p; begin ; while 1 < 2 do if 1 = 2 then ; else $ ; $ end.").failure = none ∧
    Tree.IsSentence
      (tokenize "program p; begin ; while 1 < 2 do if 1 = 2 then ; else $ ; $ end.").tokens := by
  have complete : (tokenize
      "program p; begin ; while 1 < 2 do if 1 = 2 then ; else $ ; $ end.").failure = none := by
    decide +kernel
  have checked : (compile
      "program p; begin ; while 1 < 2 do if 1 = 2 then ; else $ ; $ end.").toOption.any
        (fun _ => true) = true := by
    decide +kernel
  obtain ⟨program, compiled, _⟩ := exists_of_any checked
  exact ⟨complete, (compile_recognizes_sentences complete).1 ⟨program, compiled⟩⟩

end Pascalet.Program
