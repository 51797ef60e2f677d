import Pascalet.Compiler.Goal
import Pascalet.Proofs.Backpatching.History

namespace Pascalet

open Buffer (Change)

/-- A result as it should be, or an error that belongs to a line. -/
def Located {α : Type} (post : α → Prop) : Except CompileError α → Prop
  | .ok value => post value
  | .error error => error.line?.isSome = true

namespace Located

variable {α β : Type} {post : α → Prop} {after : β → Prop}

theorem bind {first : Except CompileError α} {next : α → Except CompileError β}
    (located : Located post first) (rest : ∀ value, post value → Located after (next value)) :
    Located after (first >>= next) := by
  cases first with
  | error error => exact located
  | ok value => exact rest value located

theorem map {first : Except CompileError α} {next : α → β} (located : Located post first)
    (rest : ∀ value, post value → after (next value)) : Located after (first.map next) := by
  cases first with
  | error error => exact located
  | ok value => exact rest value located

end Located

namespace Draft

def symbolsOf (draft : Draft) (names : List Token) : List Symbol :=
  names.filterMap (draft.symbols.lookup? ·.lexeme)

def storing (draft : Draft) : List Change :=
  draft.procedure.elim [] fun procedure =>
    procedure.parameters.reverse.map fun parameter => .emit .store (.integer parameter.2)

def closing (draft : Draft) : List Change :=
  draft.procedure.elim [] fun procedure =>
    [.emit .release (.integer (procedure.parameters.length + procedure.localCount : Nat)),
      .emit .ret .absent]

def reading (draft : Draft) (names : List Token) : List Change :=
  (draft.symbolsOf names).flatMap fun symbol =>
    [.emit .read .absent, .emit .store (.integer symbol.address)]

def calling (draft : Draft) (procedure : Symbol) (arguments : List Token) : List Change :=
  let symbols := draft.symbolsOf arguments
  let passes := symbols.map fun symbol => Change.emit .pass (.integer symbol.address)
  .emitJump .pushReturn :: passes ++
    [.patch draft.code.size (draft.code.size + 1 + symbols.length + 1 : Nat),
      .emit .call (.integer procedure.address)]

end Draft

def Token.loading (token : Token) : List Change :=
  match token.kind with
  | .integerLiteral | .realLiteral => [.emit .constant (.text token.lexeme)]
  | _ => []

namespace Goal

/-- What a goal does to the code with a token that it accepts. -/
def changes (token : Token) (draft : Draft) : Goal → List Change
  | programName => [.emit .start .absent]
  | endOfProgram => [.emit .stop .absent]
  | declarations => if token.kind = .keyword .procedureWord then [.emitJump .jump] else []
  | procedures skips =>
    if token.kind = .keyword .procedureWord then [.emitJump .jump]
    else skips.map fun (skip : Nat) => .patch skip draft.code.size
  | declareVariables found _ => found.flatMap fun _ => [.allocate, .emit .reserve (.integer 1)]
  | declareParameters found _ => found.map fun _ => .allocate
  | parametersTail => if token.kind = .semicolon then [] else draft.storing
  | endOfProcedure => draft.closing
  | afterName name =>
    if token.kind = .assign ∨ token.kind = .leftParen then []
    else (draft.symbolsOf [name]).flatMap (draft.calling · [])
  | readInto found => draft.reading found
  | perform _ procedure arguments => draft.calling procedure arguments
  | writeTail => [.emit .write .absent]
  | thenBranch | loopBody _ => [.emitJump .jumpIfZero]
  | elseBranch skip =>
    -- The jump out of the first branch has no target yet, unless there is no second branch.
    .emitJump .jump :: .patch skip (draft.code.size + 1 : Nat) ::
      if token.kind = .keyword .elseWord then []
      else [.patch draft.code.size (draft.code.size + 1 : Nat)]
  | endOfIf leave => [.patch leave draft.code.size]
  | endOfLoop start leave =>
    [.emit .jump (.integer start), .patch leave (draft.code.size + 1 : Nat)]
  | assignment _ | expression | term | factor => token.loading
  | load name =>
    (draft.symbolsOf [name]).map fun symbol => .emit .load (.integer symbol.address)
  | emit opcode argument => [.emit opcode argument]
  | _ => []

def waiting : Goal → List Nat
  | procedures skips => skips
  | elseBranch leave | endOfIf leave | endOfLoop _ leave => [leave]
  | _ => []

end Goal

/-- A history leads to code in which just these jumps have no target, in any order. -/
structure Buffer.Yields (start : Buffer) (history : List Change) (waiting : List Nat)
    (code : Buffer) : Prop where
  leads : start.Leads history code
  waits : code.pending.Perm waiting

namespace Buffer.Yields

variable {start code : Buffer} {history : List Change} {waiting : List Nat} {draft : Draft}

theorem change {change : Change} {next : Buffer} {after : List Nat}
    (yields : start.Yields history waiting code) (applied : change.apply code = .ok next)
    (waits : next.pending.Perm after) : start.Yields (history ++ [change]) after next :=
  ⟨yields.leads.trans (.single applied), waits⟩

theorem nothing (yields : start.Yields history waiting code) :
    start.Yields (history ++ []) waiting code := by
  rwa [List.append_nil]

theorem perm {after : List Nat} (yields : start.Yields history waiting code)
    (same : waiting.Perm after) : start.Yields history after code :=
  ⟨yields.leads, yields.waits.trans same⟩

theorem size_append {later : List Change} {after : List Nat} {next : Buffer}
    (yields : start.Yields history waiting code) (behind : start.Yields (history ++ later) after next) :
    next.size = code.size + addedIn later := by
  rw [behind.leads.size, yields.leads.size, addedIn_append, Nat.add_assoc]

theorem emit (yields : start.Yields history waiting code) (opcode : Opcode) (argument : Argument) :
    start.Yields (history ++ [.emit opcode argument]) waiting (code.emit opcode argument) :=
  yields.change rfl yields.waits

theorem allocate (yields : start.Yields history waiting code) :
    start.Yields (history ++ [.allocate]) waiting code.allocate :=
  yields.change rfl yields.waits

theorem emitJump (yields : start.Yields history waiting code) (opcode : Opcode) :
    start.Yields (history ++ [.emitJump opcode]) (code.size :: waiting) (code.emitJump opcode) :=
  yields.change rfl (List.perm_append_comm.trans (yields.waits.cons code.size))

theorem patch {index target : Nat} (yields : start.Yields history (index :: waiting) draft.code) :
    Located (fun patched => start.Yields (history ++ [.patch index target]) waiting patched.code)
      (draft.patch index target) := by
  have awaited : index ∈ draft.code.pending := yields.waits.mem_iff.mpr List.mem_cons_self
  have left : (draft.code.pending.erase index).Perm waiting := by
    have erased := yields.waits.erase index
    rwa [List.erase_cons_head] at erased
  have applied : draft.code.patch index target = .ok { draft.code with
      instructions := draft.code.instructions.modify index fun jump =>
        { jump with argument := .integer target }
      pending := draft.code.pending.erase index } := by
    simp only [Buffer.patch, Int.toNat_natCast, Int.natCast_nonneg, awaited, and_self, ↓reduceIte]
  rw [Draft.patch, applied]
  exact yields.change applied left

theorem patchHere {index here : Nat} (yields : start.Yields history (index :: waiting) draft.code)
    (size : draft.code.size = here) :
    Located (fun patched => start.Yields (history ++ [.patch index here]) waiting patched.code)
      (draft.patchHere index) := by
  subst size
  exact yields.patch

theorem patchAll {skips : List Nat} (yields : start.Yields history (skips ++ waiting) draft.code) :
    Located (fun patched =>
        start.Yields (history ++ skips.map fun (skip : Nat) => .patch skip draft.code.size) waiting
          patched.code)
      (skips.foldlM Draft.patchHere draft) := by
  -- The target is the same for all: a patch adds no instruction.
  generalize target : draft.code.size = here
  induction skips generalizing draft history with
  | nil =>
    rw [List.map_nil, List.append_nil]
    exact yields
  | cons skip rest ih =>
    rw [List.foldlM_cons, List.map_cons, List.append_cons]
    refine (yields.patchHere target).bind fun patched reached => ih reached ?_
    exact (yields.size_append reached).trans target

theorem foldlM {α : Type} {step : Draft → α → Except CompileError Draft} {added : α → List Change}
    {items : List α} (yields : start.Yields history waiting draft.code)
    (each : ∀ {earlier : List Change} {draft : Draft} (item : α),
      start.Yields earlier waiting draft.code →
        Located (fun reached => start.Yields (earlier ++ added item) waiting reached.code)
          (step draft item)) :
    Located (fun reached => start.Yields (history ++ items.flatMap added) waiting reached.code)
      (items.foldlM step draft) := by
  induction items generalizing draft history with
  | nil =>
    rw [List.flatMap_nil, List.append_nil]
    exact yields
  | cons item rest ih =>
    rw [List.foldlM_cons, List.flatMap_cons, ← List.append_assoc]
    exact (each item yields).bind fun _ => ih

theorem emitEach {α : Type} (yields : start.Yields history waiting draft.code) (opcode : Opcode)
    (address : α → Int) (items : List α) :
    start.Yields (history ++ items.map fun item => .emit opcode (.integer (address item))) waiting
      (items.foldl (fun draft item => draft.emitAt opcode (address item)) draft).code := by
  induction items generalizing draft history with
  | nil =>
    rw [List.map_nil, List.append_nil]
    exact yields
  | cons item rest ih =>
    rw [List.map_cons, List.append_cons]
    apply ih
    exact yields.emit opcode (.integer (address item))

end Buffer.Yields

namespace Draft

variable {start : Buffer} {history : List Change} {waiting : List Nat} {draft : Draft}

theorem located_resolve (name : Token) :
    Located (fun symbol => draft.symbols.lookup? name.lexeme = some symbol) (draft.resolve name) := by
  unfold resolve
  split
  next symbol found => exact found
  next => rfl

theorem located_resolveVariable (name : Token) :
    Located (fun symbol => draft.symbols.lookup? name.lexeme = some symbol)
      (draft.resolveVariable name) := by
  apply (located_resolve name).bind
  intro symbol found
  split
  · rfl
  · exact found

theorem located_resolveProcedure (name : Token) :
    Located (fun symbol => draft.symbols.lookup? name.lexeme = some symbol)
      (draft.resolveProcedure name) := by
  apply (located_resolve name).bind
  intro symbol found
  split
  · exact found
  · rfl

theorem symbolsOf_singleton {name : Token} {symbol : Symbol}
    (found : draft.symbols.lookup? name.lexeme = some symbol) : draft.symbolsOf [name] = [symbol] := by
  rw [symbolsOf, List.filterMap_cons, found]
  rfl

theorem located_resolveVariables (names : List Token) :
    Located (· = draft.symbolsOf names) (names.mapM draft.resolveVariable) := by
  induction names with
  | nil => rfl
  | cons name rest ih =>
    rw [List.mapM_cons]
    refine (located_resolveVariable name).bind fun symbol found => ih.bind fun symbols all => ?_
    rw [symbolsOf, List.filterMap_cons, found]
    exact congrArg (symbol :: ·) all

theorem located_checkFresh (name : Token) : Located (fun _ => True) (draft.checkFresh name) := by
  unfold checkFresh
  split
  · rfl
  · exact True.intro

theorem yields_declareVariables (yields : start.Yields history waiting draft.code) (type : DataType)
    (names : List Token) :
    Located (fun declared => start.Yields (history ++ names.flatMap fun _ =>
        [.allocate, .emit .reserve (.integer 1)]) waiting declared.code)
      (names.foldlM (declareVariable type) draft) := by
  apply yields.foldlM
  intro earlier draft name yields
  refine (located_checkFresh name).bind fun _ _ => ?_
  have reserved := yields.allocate.emit .reserve (.integer 1)
  rw [List.append_assoc] at reserved
  exact reserved

theorem yields_declareParameters (yields : start.Yields history waiting draft.code) (type : DataType)
    (names : List Token) :
    Located (fun declared =>
        start.Yields (history ++ names.map fun _ => .allocate) waiting declared.code)
      (names.foldlM (declareParameter type) draft) := by
  rw [List.map_eq_flatMap]
  apply yields.foldlM
  intro earlier draft name yields
  exact (located_checkFresh name).bind fun _ _ => yields.allocate

theorem yields_declareProcedure (yields : start.Yields history waiting draft.code) :
    start.Yields (history ++ draft.storing) waiting draft.declareProcedure.code := by
  cases opened : draft.procedure with
  | none =>
    simp only [declareProcedure, storing, opened, Option.elim_none, List.append_nil]
    exact yields
  | some procedure =>
    simp only [declareProcedure, storing, opened, Option.elim_some]
    apply Buffer.Yields.emitEach
    exact yields

theorem yields_closeProcedure (yields : start.Yields history waiting draft.code) :
    start.Yields (history ++ draft.closing) waiting draft.closeProcedure.code := by
  cases opened : draft.procedure with
  | none =>
    simp only [closeProcedure, closing, opened, Option.elim_none, List.append_nil]
    exact yields
  | some procedure =>
    simp only [closeProcedure, closing, opened, Option.elim_some]
    rw [List.append_cons]
    exact (yields.emit .release _).emit .ret .absent

theorem yields_emitReads (yields : start.Yields history waiting draft.code) (names : List Token) :
    Located (fun read => start.Yields (history ++ draft.reading names) waiting read.code)
      (draft.emitReads names) := by
  unfold emitReads
  induction names generalizing draft history with
  | nil =>
    rw [reading, symbolsOf, List.filterMap_nil, List.flatMap_nil, List.append_nil]
    exact yields
  | cons name rest ih =>
    rw [List.foldlM_cons, emitRead, bind_assoc]
    refine (located_resolveVariable name).bind fun symbol found => ?_
    have stored := (yields.emit .read .absent).emit .store (.integer symbol.address)
    -- The names behind this one stand for the same symbols as before it.
    have rest : draft.reading (name :: rest) = [.emit .read .absent,
        .emit .store (.integer symbol.address)] ++ draft.reading rest := by
      rw [reading, symbolsOf, List.filterMap_cons, found, List.flatMap_cons]
      rfl
    rw [rest, ← List.append_assoc, List.append_cons]
    exact ih stored

theorem yields_emitCall (yields : start.Yields history waiting draft.code) (name : Token)
    (procedure : Symbol) (arguments : List Token) :
    Located (fun called => start.Yields (history ++ draft.calling procedure arguments) waiting called.code)
      (draft.emitCall name procedure arguments) := by
  unfold emitCall
  split
  · rfl
  · refine (located_resolveVariables arguments).bind fun symbols same => ?_
    subst same
    have begun : start.Yields (history ++ [.emitJump .pushReturn]) (draft.code.size :: waiting)
        (draft.emitJump .pushReturn).code := yields.emitJump .pushReturn
    have passed := begun.emitEach .pass Symbol.address (draft.symbolsOf arguments)
    have grown : (draft.emitJump .pushReturn).code.size = draft.code.size + 1 := Array.size_push _
    have size := begun.size_append passed
    rw [Buffer.addedIn_emits, grown] at size
    refine (Buffer.Yields.patch passed).bind fun patched reached => ?_
    have called := reached.emit .call (.integer procedure.address)
    rw [Buffer.nextIndex, size] at called
    show start.Yields (history ++ draft.calling procedure arguments) waiting
      (patched.code.emit .call (.integer procedure.address))
    rw [calling]
    simpa only [List.append_assoc, List.cons_append, List.nil_append] using called

end Draft

end Pascalet
