import Mathlib.Data.List.Forall2
import Pascalet.Proofs.Backpatching.Answers
import Pascalet.Proofs.Recognition.Sentence
import Pascalet.Proofs.Renaming.Outcome

namespace Pascalet

/-- Tokens at one place of two texts that differ in names and lines alone. -/
def Token.Renamed (rename : String → String) (token other : Token) : Prop :=
  other.kind = token.kind ∧
    other.lexeme = if token.kind = .identifier then rename token.lexeme else token.lexeme

instance (rename : String → String) (token other : Token) :
    Decidable (token.Renamed rename other) :=
  inferInstanceAs (Decidable (_ ∧ _))

/-- Each token with its place in the text for a line. -/
def byPlace (tokens : List Token) : List Token :=
  tokens.mapIdx fun place token => { token with line := place }

def lineAt (tokens : List Token) (place : Nat) : Nat :=
  (tokens[place]?.map Token.line).getD 0

theorem lineAt_eq {tokens : List Token} {place : Nat} {token : Token}
    (found : tokens[place]? = some token) : lineAt tokens place = token.line := by
  rw [lineAt, found]
  rfl

theorem exists_of_mem_byPlace {tokens : List Token} {token : Token} (found : token ∈ byPlace tokens) :
    ∃ original ∈ tokens, token.kind = original.kind ∧ token.lexeme = original.lexeme ∧
      tokens[token.line]? = some original := by
  obtain ⟨place, inside, rfl⟩ := List.mem_mapIdx.mp found
  exact ⟨tokens[place], List.getElem_mem inside, rfl, rfl, List.getElem?_eq_getElem inside⟩

theorem mem_knownNames_of_byPlace {tokens : List Token} {name : String}
    (known : name ∈ knownNames (byPlace tokens)) : name ∈ knownNames tokens := by
  rcases List.mem_cons.mp known with rfl | named
  · exact List.mem_cons_self
  · obtain ⟨token, kept, rfl⟩ := List.mem_map.mp named
    obtain ⟨found, isName⟩ := List.mem_filter.mp kept
    obtain ⟨original, member, kind, lexeme, -⟩ := exists_of_mem_byPlace found
    rw [lexeme]
    apply mem_knownNames member
    rw [← kind]
    exact of_decide_eq_true isName

theorem map_byPlace {new : Renaming} {rename : String → String} {first second : List Token}
    (same : List.Forall₂ (Token.Renamed rename) first second)
    (agree : ∀ name ∈ knownNames first, new.name name = rename name)
    (lines : new.line = lineAt second) :
    (byPlace first).map (Token.rename new) = second := by
  have length : first.length = second.length := same.length_eq
  apply List.ext_getElem
  · simpa [byPlace] using length
  · intro place inside insideSecond
    have insideFirst : place < first.length := length ▸ insideSecond
    obtain ⟨kind, lexeme⟩ := same.get insideFirst insideSecond
    have line : new.line place = second[place].line := by
      rw [lines]
      exact lineAt_eq (List.getElem?_eq_getElem insideSecond)
    simp only [byPlace, List.getElem_map, List.getElem_mapIdx, Token.rename, Token.asName, line]
    simp only [List.get_eq_getElem] at kind lexeme
    split
    next isName =>
      rw [agree _ (mem_knownNames (List.getElem_mem insideFirst) isName)]
      rw [if_pos isName] at lexeme
      rw [← kind, ← lexeme]
    next other =>
      rw [if_neg other] at lexeme
      rw [← kind, ← lexeme]

/-- Errors of one class, at the same place of two texts. -/
def SamePlace (first second : List Token) (error other : CompileError) : Prop :=
  other.errorClass = error.errorClass ∧
    ∃ (place : Nat) (token otherToken : Token),
      first[place]? = some token ∧ second[place]? = some otherToken ∧
      error.line? = some token.line ∧ other.line? = some otherToken.line

theorem CompileError.samePlace_rename {old new : Renaming} {first second : List Token}
    {error : CompileError} (failed : Goal.outcome (byPlace first) = .error error)
    (length : first.length = second.length) (oldLines : old.line = lineAt first)
    (newLines : new.line = lineAt second) (located : error.line?.isSome = true) :
    SamePlace first second (error.rename old) (error.rename new) := by
  obtain ⟨place, atPlace⟩ := Option.isSome_iff_exists.mp located
  obtain ⟨token, found, rfl⟩ := Goal.exists_line_of_error failed atPlace
  obtain ⟨original, -, -, -, here⟩ := exists_of_mem_byPlace found
  have inside : token.line < second.length := by
    rw [← length]
    exact (List.getElem?_eq_some_iff.mp here).choose
  have there := List.getElem?_eq_getElem inside
  refine ⟨?_, token.line, original, second[token.line], here, there, ?_, ?_⟩
  · rw [errorClass_rename, errorClass_rename]
  · rw [line?_rename, atPlace, Option.map_some, oldLines, lineAt_eq here]
  · rw [line?_rename, atPlace, Option.map_some, newLines, lineAt_eq there]

theorem Goal.outcome_renamed {rename : String → String} {first second : List Token}
    (global : rename globalScope = globalScope)
    (injective : ∀ name ∈ knownNames first, ∀ other ∈ knownNames first,
      rename name = rename other → name = other)
    (same : List.Forall₂ (Token.Renamed rename) first second) :
    (∃ symbols code, outcome first = .ok (symbols, code) ∧
      outcome second = .ok (symbols.rename rename, code)) ∨
    ∃ error other, outcome first = .error error ∧ outcome second = .error other ∧
      (error.line?.isSome = true → SamePlace first second error other) := by
  -- Both texts come from the places of the first one, by a renaming each.
  let old := Renaming.ofNames first id (lineAt first) rfl fun _ _ _ _ => id
  let new := Renaming.ofNames first rename (lineAt second) global injective
  have unchanged : List.Forall₂ (Token.Renamed id) first first :=
    List.forall₂_same.mpr fun token _ => ⟨rfl, by simp⟩
  have outcomeFirst := @outcome_rename old (byPlace first)
  have outcomeSecond := @outcome_rename new (byPlace first)
  rw [map_byPlace unchanged (fun _ => extended_of_mem) rfl] at outcomeFirst
  rw [map_byPlace same (fun _ => extended_of_mem) rfl] at outcomeSecond
  cases built : outcome (byPlace first) with
  | ok pair =>
    left
    obtain ⟨symbols, code⟩ := pair
    rw [built] at outcomeFirst outcomeSecond
    have sameFirst : symbols.rename old.name = symbols.rename id :=
      rename_congr built fun name known => extended_of_mem (mem_knownNames_of_byPlace known)
    have sameSecond : symbols.rename new.name = symbols.rename rename :=
      rename_congr built fun name known => extended_of_mem (mem_knownNames_of_byPlace known)
    refine ⟨symbols, code, ?_, ?_⟩
    · have renamed : outcome first = .ok (symbols.rename old.name, code) := outcomeFirst
      rw [renamed, sameFirst, SymbolTable.rename_id]
    · have renamed : outcome second = .ok (symbols.rename new.name, code) := outcomeSecond
      rw [renamed, sameSecond]
  | error error =>
    right
    rw [built] at outcomeFirst outcomeSecond
    refine ⟨_, _, outcomeFirst, outcomeSecond, ?_⟩
    intro located
    rw [CompileError.line?_rename, Option.isSome_map] at located
    exact CompileError.samePlace_rename built same.length_eq rfl rfl located

namespace Program

variable {source : String}

theorem compile_of_outcome {symbols : SymbolTable} {code : Buffer}
    (complete : (tokenize source).failure = none)
    (built : Goal.outcome (tokenize source).tokens = .ok (symbols, code)) :
    ∃ name, compile source = .ok ⟨name, symbols, code⟩ := by
  unfold Goal.outcome at built
  cases reached : Goal.advanceAll Goal.program (tokenize source).tokens {} with
  | error error =>
    rw [reached] at built
    cases built
  | ok pair =>
    rw [reached] at built
    cases built
    obtain ⟨tree, spells⟩ := exists_spells_of_advanceAll complete reached
    have byNames : FailsByNames (compile source) := by
      rw [compile_eq spells complete]
      exact tree.failsByNames.map
    cases pending : pair.2.code.pending with
    | nil => exact ⟨pair.2.name, by simp only [compile, ofTokens, reached, complete, pending]⟩
    | cons index rest =>
      have failed : compile source = .error (.jump (.unpatched (index :: rest))) := by
        simp only [compile, ofTokens, reached, complete, pending]
      cases byNames _ failed

theorem compile_of_outcome_error {error : CompileError}
    (failed : Goal.outcome (tokenize source).tokens = .error error) :
    compile source = .error error ∧ error.line?.isSome = true := by
  have start : ({} : Draft).code.pending.Perm (Goal.program.flatMap Goal.waiting ++ []) := .refl _
  have located := Goal.waits_advanceAll (tokenize source).tokens start
  unfold Goal.outcome at failed
  cases reached : Goal.advanceAll Goal.program (tokenize source).tokens {} with
  | error cause =>
    rw [reached] at failed located
    cases failed
    exact ⟨by simp only [compile, ofTokens, reached], located⟩
  | ok pair =>
    rw [reached] at failed
    cases failed

theorem line?_of_compile {error : CompileError} (failed : compile source = .error error) :
    error.line?.isSome = true := by
  cases reached : Goal.advanceAll Goal.program (tokenize source).tokens {} with
  | error cause =>
    have stopped : Goal.outcome (tokenize source).tokens = .error cause := by
      rw [Goal.outcome, reached]
      rfl
    obtain ⟨same, located⟩ := compile_of_outcome_error stopped
    rw [same] at failed
    cases failed
    exact located
  | ok pair =>
    have built : Goal.outcome (tokenize source).tokens = .ok (pair.2.symbols, pair.2.code) := by
      rw [Goal.outcome, reached]
      rfl
    cases failure : (tokenize source).failure with
    | none =>
      obtain ⟨name, compiled⟩ := compile_of_outcome failure built
      rw [compiled] at failed
      cases failed
    | some invalid =>
      simp only [compile, ofTokens, reached, failure] at failed
      cases failed
      rfl

/-- Two texts that differ in layout and in the choice of names compile into the same code, with
tables that differ in the names alone, or they fail with errors of one class at the same place. -/
theorem compile_renamed {first second : String} {rename : String → String}
    (complete : (tokenize first).failure = none) (completeToo : (tokenize second).failure = none)
    (global : rename globalScope = globalScope)
    (injective : ∀ name ∈ knownNames (tokenize first).tokens,
      ∀ other ∈ knownNames (tokenize first).tokens, rename name = rename other → name = other)
    (same : List.Forall₂ (Token.Renamed rename) (tokenize first).tokens (tokenize second).tokens) :
    (∃ program renamed, compile first = .ok program ∧ compile second = .ok renamed ∧
      renamed.code = program.code ∧ renamed.symbols = program.symbols.rename rename) ∨
    ∃ error other, compile first = .error error ∧ compile second = .error other ∧
      SamePlace (tokenize first).tokens (tokenize second).tokens error other := by
  rcases Goal.outcome_renamed global injective same with
    ⟨symbols, code, built, builtToo⟩ | ⟨error, other, failed, failedToo, place⟩
  · obtain ⟨name, compiled⟩ := compile_of_outcome complete built
    obtain ⟨otherName, compiledToo⟩ := compile_of_outcome completeToo builtToo
    exact .inl ⟨_, _, compiled, compiledToo, rfl, rfl⟩
  · obtain ⟨stopped, located⟩ := compile_of_outcome_error failed
    obtain ⟨stoppedToo, -⟩ := compile_of_outcome_error failedToo
    exact .inr ⟨error, other, stopped, stoppedToo, place located⟩

theorem compile_renamed_swap :
    ∃ program renamed,
      compile "program p;var n:real;procedure q(m:real);begin n:=m end;begin q(n)end." =
        .ok program ∧
      compile "program p\x7b\x7d;var m:real;procedure q(n:real);begin m:=n end;\nbegin q(m)end." =
        .ok renamed ∧
      renamed.code = program.code ∧
      renamed.symbols = program.symbols.rename fun name =>
        if name = "n" then "m" else if name = "m" then "n" else name := by
  refine (compile_renamed ?_ ?_ ?_ ?_ ?_).resolve_right ?_
  · decide +kernel
  · decide +kernel
  · decide
  · intro name _ other _ same
    grind
  · decide +kernel
  · rintro ⟨error, other, failed, -⟩
    have compiled : (compile
        "program p;var n:real;procedure q(m:real);begin n:=m end;begin q(n)end.").toOption.isSome =
          true := by
      decide +kernel
    rw [failed] at compiled
    cases compiled

end Program

end Pascalet
