import Pascalet.Proofs.Execution.Safety
import Pascalet.Proofs.Scoping.Privacy

namespace Pascalet

namespace Core

/-- A command without loops that calls only procedures with smaller numbers than the limit. -/
def Command.Descends (limit : Nat) : Command → Prop
  | .sequence first second => first.Descends limit ∧ second.Descends limit
  | .choose _ body other => body.Descends limit ∧ other.Descends limit
  | .loop _ _ => False
  | .call procedure _ => procedure < limit
  | _ => True

def Descending (procedures : List Procedure) : Prop :=
  ∀ (number : Nat) (declared : Procedure), procedures[number]? = some declared →
    declared.body.Descends number

theorem Command.descends_inOrder {limit : Nat} {commands : List Command}
    (each : ∀ command ∈ commands, command.Descends limit) : (inOrder commands).Descends limit := by
  induction commands with
  | nil => trivial
  | cons command rest ih =>
    rw [List.forall_mem_cons] at each
    exact ⟨each.1, ih each.2⟩

variable {procedures : List Procedure}

theorem Exec.exists_read (address : Nat) (state : State) :
    ∃ outcome, Exec procedures (.read address) state outcome := by
  cases taken : state.takeNumber with
  | mk result after =>
    cases result with
    | ok value => exact ⟨_, .read taken⟩
    | error fault => exact ⟨_, .readFails taken⟩

theorem Command.Descends.exists_exec {limit : Nat} (descending : Descending procedures)
    (inside : limit ≤ procedures.length) {command : Command} (descends : command.Descends limit)
    (state : State) : ∃ outcome, Exec procedures command state outcome := by
  -- The induction is on the limit, which a call makes smaller, and for each limit on the command.
  induction limit using Nat.strongRecOn generalizing command state with
  | ind limit ih =>
    induction command generalizing state with
    | skip => exact ⟨_, .skip state⟩
    | sequence first second firstIh secondIh =>
      obtain ⟨outcome, begun⟩ := firstIh descends.1 state
      cases outcome with
      | finished between =>
        obtain ⟨final, ended⟩ := secondIh descends.2 between
        exact ⟨final, .sequence begun ended⟩
      | failed fault final => exact ⟨_, .sequenceFails begun⟩
    | read address => exact Exec.exists_read address state
    | write value => exact ⟨_, .write value state⟩
    | assign address value => exact ⟨_, .assign address value state⟩
    | choose condition body other bodyIh otherIh =>
      cases tested : condition.holds state.cells with
      | true =>
        obtain ⟨outcome, chosen⟩ := bodyIh descends.1 state
        exact ⟨outcome, .choose tested chosen⟩
      | false =>
        obtain ⟨outcome, chosen⟩ := otherIh descends.2 state
        exact ⟨outcome, .chooseOther tested chosen⟩
    | loop condition body ih => exact descends.elim
    | call number arguments =>
      have smaller : number < limit := descends
      have found := List.getElem?_eq_getElem (Nat.lt_of_lt_of_le smaller inside)
      obtain ⟨outcome, performed⟩ :=
        ih number smaller (by omega) (descending number _ found) _
      exact ⟨outcome, .call found performed⟩

end Core

theorem Symbol.Fits.number_lt {cells : Nat} {parameterCounts : List Nat} {symbol : Symbol}
    (fits : symbol.Fits cells parameterCounts) (procedure : symbol.isProcedure = true) :
    symbol.address.toNat < parameterCounts.length := by
  obtain ⟨number, address, counted, _⟩ := fits
  rw [address, Int.toNat_natCast]
  exact (List.getElem?_eq_some_iff.mp (counted procedure)).1

theorem SymbolTable.name_of_lookup? {table : SymbolTable} {name : String} {symbol : Symbol}
    (found : table.lookup? name = some symbol) : symbol.name = name := by
  rcases Option.or_eq_some_iff.mp found with here | ⟨_, outside⟩
  · have same := List.find?_some here
    simp only [Bool.and_eq_true, beq_iff_eq] at same
    exact same.1
  · have same := List.find?_some outside
    simp only [Bool.and_eq_true, beq_iff_eq] at same
    exact same.1

namespace Tree

variable {table : SymbolTable} {limit : Nat}

def CallsBelow (table : SymbolTable) (limit : Nat) (uses : List Use) : Prop :=
  ∀ name count symbol, .call name count ∈ uses → table.lookup? name = some symbol →
    symbol.isProcedure = true → symbol.address.toNat < limit

def NoWhile (tokens : List Token) : Prop :=
  ∀ token ∈ tokens, token.kind ≠ .keyword .whileWord

theorem CallsBelow.mono {uses fewer : List Use} (below : CallsBelow table limit uses)
    (le : fewer ⊆ uses) : CallsBelow table limit fewer :=
  fun name count symbol found => below name count symbol (le found)

theorem gives_call_descends {name : Token} {arguments : List Token} {count : Nat} {uses : List Use}
    (below : CallsBelow table limit uses) (found : .call name.lexeme count ∈ uses) :
    Gives (table.call name arguments) (Core.Command.Descends limit) := by
  have denoted : Gives (table.denoted name) fun symbol => table.lookup? name.lexeme = some symbol := by
    intro symbol same
    unfold SymbolTable.denoted at same
    split at same
    next lookup =>
      cases same
      exact lookup
    · cases same
  refine denoted.bind fun symbol lookup => ?_
  intro command same
  split at same
  next procedure =>
    split at same
    · cases same
    · refine Gives.bind (fun _ _ => trivial) (fun cells _ => .ok ?_) command same
      exact below name.lexeme count symbol found lookup procedure
  · cases same

mutual

theorem Statement.gives_descends (statement : Statement) (noWhile : NoWhile statement.tokens)
    (below : CallsBelow table limit statement.uses) :
    Gives (statement.resolve table) (Core.Command.Descends limit) := by
  cases statement with
  | read word targets =>
    refine Gives.bind (fun _ _ => trivial) fun cells _ => .ok (Core.Command.descends_inOrder ?_)
    simp [Core.Command.Descends]
  | write word left first rest right =>
    refine Gives.bind (fun _ _ => trivial) fun value _ =>
      Gives.bind (fun _ _ => trivial) fun values _ => .ok ⟨trivial, Core.Command.descends_inOrder ?_⟩
    simp [Core.Command.Descends]
  | choose word condition thenWord body close =>
    simp only [NoWhile, Statement.tokens, List.forall_mem_append, List.forall_mem_cons] at noWhile
    exact Gives.bind (fun _ _ => trivial) fun tested _ =>
      (body.gives_descends noWhile.1.2.2 (below.mono (by simp [Statement.uses]))).bind
        fun chosen chosenDescends => .ok ⟨chosenDescends, trivial⟩
  | chooseElse word condition thenWord body elseWord other close =>
    simp only [NoWhile, Statement.tokens, List.forall_mem_append, List.forall_mem_cons] at noWhile
    exact Gives.bind (fun _ _ => trivial) fun tested _ =>
      (body.gives_descends noWhile.1.1.2.2 (below.mono (by simp [Statement.uses]))).bind
        fun chosen chosenDescends =>
          (other.gives_descends noWhile.1.2.2 (below.mono (by simp [Statement.uses]))).bind
            fun alternative alternativeDescends => .ok ⟨chosenDescends, alternativeDescends⟩
  | loop word condition doWord body close =>
    exact absurd rfl (noWhile word.token (by simp [Statement.tokens]))
  | assign target sign value =>
    exact Gives.bind (fun _ _ => trivial) fun address _ =>
      Gives.bind (fun _ _ => trivial) fun assigned _ => .ok trivial
  | call name arguments => exact gives_call_descends below List.mem_cons_self

theorem Statements.gives_descends (statements : Statements) (noWhile : NoWhile statements.tokens)
    (below : CallsBelow table limit statements.uses) :
    Gives (statements.resolve table) (Core.Command.Descends limit) := by
  cases statements with
  | empty => exact .ok trivial
  | last statement => exact statement.gives_descends noWhile below
  | skip semicolon rest =>
    simp only [NoWhile, Statements.tokens, List.forall_mem_cons] at noWhile
    exact rest.gives_descends noWhile.2 below
  | more statement semicolon rest =>
    simp only [NoWhile, Statements.tokens, List.forall_mem_append, List.forall_mem_cons] at noWhile
    exact (statement.gives_descends noWhile.1 (below.mono (by simp [Statements.uses]))).bind
      fun first firstDescends =>
        (rest.gives_descends noWhile.2.2 (below.mono (by simp [Statements.uses]))).bind
          fun second secondDescends => .ok ⟨firstDescends, secondDescends⟩

end

/-- The body of the procedure has a call of the procedure. -/
def Procedure.CallsItself (declared : Procedure) : Prop :=
  ∃ count, .call declared.name.lexeme count ∈ declared.body.uses

theorem callsBelow_of_fits {context : Context} (fits : context.Fits) (uses : List Use) :
    CallsBelow context.table context.parameterCounts.length uses := by
  intro name count symbol _ lookup procedure
  exact (fits symbol (SymbolTable.mem_of_lookup? lookup)).number_lt procedure

/-- The new procedure is the only one that is declared in its own table and not before. -/
theorem Procedure.Resolved.descends {declared : Procedure} {context after headed entered : Context}
    {resolved : Core.Procedure} (steps : declared.Resolved context resolved after headed entered)
    (fits : context.Fits) (noWhile : NoWhile declared.body.tokens) (notSelf : ¬ declared.CallsItself) :
    resolved.body.Descends context.parameterCounts.length := by
  refine declared.body.gives_descends noWhile ?_ _ steps.body
  intro name count symbol used lookup procedure
  have member := SymbolTable.mem_of_lookup? lookup
  rw [steps.table.1] at member
  rcases List.mem_append.mp member with old | new
  · exact (fits symbol old).number_lt procedure
  · rcases Procedure.of_mem_symbols new with rfl | own
    · have same : declared.name.lexeme = name := SymbolTable.name_of_lookup? lookup
      exact absurd ⟨count, same ▸ used⟩ notSelf
    · have contradiction := (Procedure.of_mem_ownSymbols own).1.symm.trans procedure
      cases contradiction

theorem descending_of_resolveItems {items : List Item} {context final : Context}
    {core : List Core.Item} (done : resolveItems items context = .ok (core, final))
    (fits : context.Fits) (noWhile : NoWhile (items.flatMap Item.tokens))
    (notSelf : ∀ declared, .procedure declared ∈ items → ¬ declared.CallsItself) :
    ∀ (number : Nat) (procedure : Core.Procedure), (Core.procedures core)[number]? = some procedure →
      procedure.body.Descends (context.parameterCounts.length + number) := by
  induction items generalizing context core with
  | nil =>
    cases done
    simp [Core.procedures]
  | cons item rest ih =>
    rw [List.flatMap_cons, NoWhile, List.forall_mem_append] at noWhile
    have restNotSelf := fun declared found => notSelf declared (List.mem_cons_of_mem _ found)
    cases item with
    | vars vars =>
      obtain ⟨after, others, entering, resolving, rfl⟩ := of_resolveItems_variables done
      have later := ih resolving (fits.declareCells (by simp) entering) noWhile.2 restNotSelf
      rwa [Context.parameterCounts_of_declareCells entering] at later
    | procedure declared =>
      obtain ⟨resolved, after, others, first, resolving, rfl⟩ := of_resolveItems_procedure done
      obtain ⟨headed, entered, steps⟩ := Procedure.of_resolve first
      have later := ih resolving (steps.afterFits fits) noWhile.2 restNotSelf
      rw [steps.parameterCounts, List.length_append, List.length_singleton] at later
      have bodyNoWhile : NoWhile declared.body.tokens := fun token found =>
        noWhile.1 token (by simp [Item.tokens, Procedure.tokens, Procedure.tail, found])
      intro number procedure found
      cases number with
      | zero =>
        cases found
        exact steps.descends fits bodyNoWhile (notSelf declared List.mem_cons_self)
      | succ number =>
        have descends := later number procedure found
        rwa [Nat.add_assoc, Nat.add_comm 1] at descends

theorem Program.descends {tree : Program} {core : Core.Program} {context : Context}
    (resolved : tree.resolve = .ok (core, context)) (noWhile : NoWhile tree.tokens)
    (notSelf : ∀ declared, .procedure declared ∈ tree.items → ¬ declared.CallsItself) :
    Core.Descending core.procedures ∧ core.body.Descends core.procedures.length := by
  obtain ⟨ofItems, ofBody⟩ := Program.of_resolve resolved
  obtain ⟨fits, counts⟩ := fits_of_resolveItems ofItems Context.fits_empty
  simp only [NoWhile, Program.tokens, Program.tail, ← tree.items_tokens, List.forall_mem_append,
    List.forall_mem_cons] at noWhile
  constructor
  · have each := descending_of_resolveItems ofItems Context.fits_empty noWhile.2.1.1.2 notSelf
    intro number declared found
    simpa using each number declared found
  · have length : context.parameterCounts.length = core.procedures.length := by
      rw [counts]
      simp [Core.Program.procedures]
    rw [← length]
    exact tree.body.gives_descends noWhile.2.1.2.2 (callsBelow_of_fits fits _) _ ofBody

end Tree

/-- A program that has no loop and in which no procedure calls itself stops on every machine that takes
it and on every input: it halts, or it fails in a read. -/
theorem Program.run_stops_without_loops {source : String} {program : Program} {tree : Tree.Program}
    (compiled : compile source = .ok program) (spells : tree.Spells (tokenize source).tokens)
    (noWhile : ∀ token ∈ (tokenize source).tokens, token.kind ≠ .keyword .whileWord)
    (notSelf : ∀ declared, .procedure declared ∈ tree.items → ¬ declared.CallsItself)
    {memorySize : Int} {input : String} {machine : Machine}
    (created : Machine.create program.code memorySize (.ofText input) = .ok machine) :
    ∃ limit last error, machine.run limit = .stopped last error ∧
      ((error = none ∧ last.status = .halted) ∨
        ∃ fault pc, error = some (.execution fault pc) ∧ fault.IsReading ∧ last.status = .failed) := by
  obtain ⟨core, context, resolved, cells, executable⟩ := executable_of_compile compiled spells
  obtain ⟨natural, enough, _⟩ := Machine.create_eq_ok_iff.mp created
  obtain ⟨final, tokens⟩ := spells
  rw [tokens, List.forall_mem_append] at noWhile
  obtain ⟨descending, descends⟩ := tree.descends resolved noWhile.1 notSelf
  obtain ⟨outcome, exec⟩ :=
    descends.exists_exec descending (Nat.le_refl _) (Core.State.initial input)
  obtain ⟨limit, last, error, stopped, ends⟩ :=
    (executable memorySize.toNat (by omega)).stopped_of_exec (Machine.shows_of_create created) exec
  refine ⟨limit, last, error, stopped, ?_⟩
  cases outcome with
  | finished state => exact .inl ⟨ends.1, ends.2.1⟩
  | failed fault state =>
    obtain ⟨⟨pc, raised⟩, status, _⟩ := ends
    exact .inr ⟨fault, pc, raised, exec.isReading, status⟩

def Tree.chained : Tree.Program :=
  let procedure (name : String) (body : Tree.Statement) : Tree.Procedure :=
    { word := ⟨"procedure", 1⟩
      name := ⟨name, 1⟩
      parameters := none
      semicolon := some ⟨";", 1⟩
      locals := []
      beginWord := ⟨"begin", 1⟩
      body := .last body
      endWord := ⟨"end", 1⟩
      close := some ⟨";", 1⟩ }
  { word := ⟨"program", 1⟩
    name := ⟨"p", 1⟩
    semicolon := some ⟨";", 1⟩
    declarations := [
      .vars ⟨⟨"var", 1⟩, ⟨⟨⟨"x", 1⟩, []⟩, ⟨":", 1⟩, .real ⟨"real", 1⟩⟩, some ⟨";", 1⟩⟩,
      .procedures (procedure "q" (.read ⟨"read", 1⟩ ⟨⟨"(", 1⟩, ⟨⟨"x", 1⟩, []⟩, ⟨")", 1⟩⟩))
        [procedure "r" (.call ⟨"q", 1⟩ none)]]
    beginWord := ⟨"begin", 1⟩
    body := .last (.call ⟨"r", 1⟩ none)
    endWord := ⟨"end", 1⟩
    dot := ⟨".", 1⟩ }

theorem Program.run_stops_without_loops_chained :
    ∃ program machine limit last error,
      compile "program p; var x: real; procedure q; begin read(x) end; procedure r; begin q end; begin r end."
        = .ok program ∧
      Machine.create program.code 1 (.ofText "") = .ok machine ∧
      machine.run limit = .stopped last error ∧
      ((error = none ∧ last.status = .halted) ∨
        ∃ fault pc, error = some (.execution fault pc) ∧ fault.IsReading ∧ last.status = .failed) := by
  have spells : Tree.chained.Spells (tokenize
      "program p; var x: real; procedure q; begin read(x) end; procedure r; begin q end; begin r end."
      ).tokens :=
    ⟨⟨"", 1⟩, by decide +kernel⟩
  have notSelf : ∀ declared, .procedure declared ∈ Tree.chained.items → ¬ declared.CallsItself := by
    simp [Tree.chained, Tree.Program.items, Tree.Declaration.items, Tree.Procedure.CallsItself,
      Tree.Statements.uses, Tree.Statement.uses, Tree.cellUses, Tree.Names.found]
  have checked : (compile
      "program p; var x: real; procedure q; begin read(x) end; procedure r; begin q end; begin r end."
      ).toOption.any (fun program => program.code.nextAddress ≤ 1) = true := by
    decide +kernel
  obtain ⟨program, compiled, small⟩ := exists_of_any checked
  have created : Machine.create program.code 1 (.ofText "") = .ok
      { code := program.code, memory := Memory.blank 1, input := .ofText "" } :=
    Machine.create_eq_ok_iff.mpr ⟨by decide, of_decide_eq_true small, rfl⟩
  obtain ⟨limit, last, error, stopped, ends⟩ :=
    run_stops_without_loops compiled spells (by decide +kernel) notSelf created
  exact ⟨program, _, limit, last, error, compiled, created, stopped, ends⟩

end Pascalet
