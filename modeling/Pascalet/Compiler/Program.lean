import Pascalet.Compiler.Goal

namespace Pascalet

structure Program where
  name : String
  symbols : SymbolTable := {}
  code : Buffer
deriving DecidableEq

namespace Program

/-- Compiles tokens into a buffer that may already hold code. The tokens in front of an invalid
character are compiled first, so an error in them is the one reported. -/
def ofTokens (list : TokenList) (buffer : Buffer) : Except CompileError Program :=
  match Goal.advanceAll Goal.program list.tokens { code := buffer } with
  | .error error => .error error
  | .ok (_, draft) =>
    match list.failure, draft.code.pending with
    | some failure, _ => .error (.invalidCharacter failure)
    | none, [] => .ok { name := draft.name, symbols := draft.symbols, code := draft.code }
    | none, unpatched => .error (.jump (.unpatched unpatched))

def compile (source : String) : Except CompileError Program :=
  ofTokens (tokenize source) {}

/-- Compiles behind jumps that nobody patches. -/
def compileBehind (jumps : Nat) (source : String) : Except CompileError Program :=
  ofTokens (tokenize source) (Nat.repeat (·.emitJump .jump) jumps {})

end Program

end Pascalet
