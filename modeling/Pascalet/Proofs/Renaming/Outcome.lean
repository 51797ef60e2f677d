import Pascalet.Proofs.Renaming.Goal

namespace Pascalet

inductive ErrorClass where
  | lexical | parse | semantic | placeholder
deriving DecidableEq

def CompileError.errorClass : CompileError → ErrorClass
  | invalidCharacter _ => .lexical
  | unexpected _ _ => .parse
  | redeclared _ _ | undeclared _ | procedureAsVariable _ | notProcedure _ | argumentCount _ _ _ =>
    .semantic
  | jump _ => .placeholder

variable {new : Renaming}

theorem CompileError.errorClass_rename (error : CompileError) :
    (error.rename new).errorClass = error.errorClass := by
  cases error <;> rfl

theorem Token.line_rename (token : Token) : (token.rename new).line = new.line token.line := by
  unfold rename
  split <;> rfl

theorem CompileError.line?_rename (error : CompileError) :
    (error.rename new).line? = error.line?.map new.line := by
  cases error with
  | unexpected expectation found => exact congrArg some (Token.line_rename found)
  | _ => rfl

namespace Goal

/-- What the tokens of a program declare and the code that they come to. -/
def outcome (tokens : List Token) : Except CompileError (SymbolTable × Buffer) :=
  (advanceAll program tokens {}).map fun reached => (reached.2.symbols, reached.2.code)

theorem outcome_eq_of_name (tokens : List Token) (name : String) :
    (advanceAll program tokens { name }).map (fun reached => (reached.2.symbols, reached.2.code)) =
      outcome tokens := by
  rcases tokens with _ | ⟨first, _ | ⟨second, rest⟩⟩
  · rfl
  · by_cases isWord : first.kind = .keyword .programWord
    · simp [outcome, advanceAll, advance, program, meet, isWord, Except.map]
    · simp [outcome, advanceAll, advance, program, meet, isWord, Except.map]
  · by_cases isWord : first.kind = .keyword .programWord
    · -- Whatever the second token is, the name of the draft is replaced or does not matter.
      simp only [outcome, advanceAll, advance, program, meet, isWord, ↓reduceIte]
      rfl
    · simp [outcome, advanceAll, advance, program, meet, isWord, Except.map]

theorem outcome_rename (tokens : List Token) :
    outcome (tokens.map (Token.rename new)) =
      new.result (fun (symbols, code) => (symbols.rename new.name, code)) (outcome tokens) := by
  have start : ({} : Draft).rename new = { name := new.name "" } := by
    simp [Draft.rename, SymbolTable.rename, new.global]
  have renamed := @advanceAll_rename new {} program tokens
  rw [start] at renamed
  have goals : program.map (Goal.rename new) = program := rfl
  rw [goals] at renamed
  rw [← outcome_eq_of_name _ (new.name ""), renamed]
  exact Renaming.result_map rfl fun _ => rfl

end Goal

def knownNames (tokens : List Token) : List String :=
  globalScope :: (tokens.filter fun token => token.kind = .identifier).map Token.lexeme

theorem mem_knownNames {tokens : List Token} {token : Token} (found : token ∈ tokens)
    (isName : token.kind = .identifier) : token.lexeme ∈ knownNames tokens := by
  apply List.mem_cons_of_mem
  exact List.mem_map_of_mem (List.mem_filter.mpr ⟨found, by simpa using isName⟩)

def padding : List String → String
  | [] => "_"
  | first :: rest => first ++ padding rest

theorem padding_pos (texts : List String) : 0 < (padding texts).length := by
  induction texts with
  | nil => decide
  | cons first rest ih =>
    rw [padding, String.length_append]
    omega

theorem length_lt_padding {texts : List String} {text : String} (found : text ∈ texts) :
    text.length < (padding texts).length := by
  induction texts with
  | nil => cases found
  | cons first rest ih =>
    rw [padding, String.length_append]
    rcases List.mem_cons.mp found with rfl | later
    · have positive := padding_pos rest
      omega
    · have shorter := ih later
      omega

/-- Renames the known names and makes the others too long to be one of the new names. -/
def extended (rename : String → String) (known : List String) (name : String) : String :=
  if name ∈ known then rename name else padding (known.map rename) ++ name

section Extended

variable {rename : String → String} {known : List String} {name : String}

theorem extended_of_mem (found : name ∈ known) : extended rename known name = rename name :=
  if_pos found

theorem length_extended (absent : name ∉ known) :
    (extended rename known name).length = (padding (known.map rename)).length + name.length := by
  rw [extended, if_neg absent, String.length_append]

theorem mem_of_extended_eq (same : extended rename known name = name) : name ∈ known := by
  by_cases found : name ∈ known
  · exact found
  · have longer := @length_extended rename known name found
    have positive := padding_pos (known.map rename)
    rw [same] at longer
    omega

theorem extended_ne {other : String} (found : name ∈ known) (absent : other ∉ known) :
    extended rename known name ≠ extended rename known other := by
  intro same
  have longer := @length_extended rename known other absent
  have shorter := length_lt_padding (List.mem_map_of_mem (f := rename) found)
  rw [← same, extended_of_mem found] at longer
  omega

theorem extended_injective
    (injective : ∀ first ∈ known, ∀ second ∈ known, rename first = rename second → first = second)
    {first second : String} (same : extended rename known first = extended rename known second) :
    first = second := by
  by_cases foundFirst : first ∈ known
  · by_cases foundSecond : second ∈ known
    · rw [extended_of_mem foundFirst, extended_of_mem foundSecond] at same
      exact injective first foundFirst second foundSecond same
    · exact absurd same (extended_ne foundFirst foundSecond)
  · by_cases foundSecond : second ∈ known
    · exact absurd same.symm (extended_ne foundSecond foundFirst)
    · rw [extended, extended, if_neg foundFirst, if_neg foundSecond] at same
      exact (String.append_right_inj _).mp same

end Extended

def Renaming.ofNames (tokens : List Token) (rename : String → String) (line : Nat → Nat)
    (global : rename globalScope = globalScope)
    (injective : ∀ first ∈ knownNames tokens, ∀ second ∈ knownNames tokens,
      rename first = rename second → first = second) : Renaming where
  name := extended rename (knownNames tokens)
  line := line
  injective := extended_injective injective
  global := (extended_of_mem List.mem_cons_self).trans global

namespace Goal

variable {tokens : List Token} {symbols : SymbolTable} {code : Buffer} {error : CompileError}

theorem map_rename_eq_self {new : Renaming}
    (sameNames : ∀ name ∈ knownNames tokens, new.name name = name)
    (sameLines : ∀ token ∈ tokens, new.line token.line = token.line) :
    tokens.map (Token.rename new) = tokens := by
  have each : ∀ token ∈ tokens, token.rename new = id token := by
    intro token found
    by_cases isName : token.kind = .identifier
    · rw [Token.rename_of_identifier new isName, Token.asName, sameLines token found,
        sameNames _ (mem_knownNames found isName)]
      rfl
    · rw [Token.rename, if_neg isName, sameLines token found]
      rfl
  rw [List.map_congr_left each, List.map_id]

theorem rename_congr {first second : String → String}
    (built : outcome tokens = .ok (symbols, code))
    (agree : ∀ name ∈ knownNames tokens, first name = second name) :
    symbols.rename first = symbols.rename second := by
  -- Other names than those of the text can be changed freely, and the table stays as it is.
  let other := Renaming.ofNames tokens id id rfl fun _ _ _ _ => id
  have unchanged := @outcome_rename other tokens
  rw [map_rename_eq_self (fun name => extended_of_mem) (fun _ _ => rfl), built] at unchanged
  have fixed : symbols.rename other.name = symbols := by
    injection unchanged with pair
    exact (congrArg Prod.fst pair).symm
  have known (name : String) (same : other.name name = name) : first name = second name :=
    agree name (mem_of_extended_eq same)
  have sameScope := known _ (congrArg SymbolTable.scope fixed)
  have sameSymbols : symbols.symbols.map (Symbol.rename first) =
      symbols.symbols.map (Symbol.rename second) := by
    apply List.map_congr_left
    intro symbol found
    have kept : symbols.symbols.map (Symbol.rename other.name) = symbols.symbols.map id := by
      rw [List.map_id]
      exact congrArg SymbolTable.symbols fixed
    have same : symbol.rename other.name = symbol := List.map_inj_left.mp kept symbol found
    rw [Symbol.rename, Symbol.rename, known _ (congrArg Symbol.name same),
      known _ (congrArg Symbol.scope same)]
  rw [SymbolTable.rename, SymbolTable.rename, sameSymbols, sameScope]

theorem exists_line_of_error {line : Nat} (failed : outcome tokens = .error error)
    (located : error.line? = some line) : ∃ token ∈ tokens, token.line = line := by
  by_cases found : ∃ token ∈ tokens, token.line = line
  · exact found
  · -- Otherwise the line could be changed without changing the text.
    let other : Renaming := ⟨id, fun number => if number = line then line + 1 else number, id, rfl⟩
    have sameLines (token : Token) (member : token ∈ tokens) :
        other.line token.line = token.line :=
      if_neg fun same => found ⟨token, member, same⟩
    have unchanged := @outcome_rename other tokens
    rw [map_rename_eq_self (fun _ _ => rfl) sameLines, failed] at unchanged
    injection unchanged with same
    have moved := @CompileError.line?_rename other error
    rw [← same, located] at moved
    have next : line = line + 1 := by
      injection moved with kept
      exact kept.trans (if_pos rfl)
    omega

end Goal

end Pascalet
