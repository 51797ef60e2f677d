import Pascalet.Proofs.Descent.Statement
import Pascalet.Proofs.Layout.Draft

namespace Pascalet.Tree

variable {draft : Draft} {table : SymbolTable} {entries : List Nat}

mutual

theorem Factor.build_eq (factor : Factor) {draft : Draft} (sound : draft.Sound table entries) :
    factor.build draft = (factor.resolve table).map fun value => draft.extend value.code [] := by
  cases factor with
  | name name =>
    rw [Factor.build, Draft.resolveVariable_bind sound name.token fun address =>
      .ok (draft.emitAt .load address), Factor.resolve]
    cases table.cell name.token with
    | error error => rfl
    | ok address => exact congrArg Except.ok (Draft.emitAt_eq_extend .load address)
  | literal literal =>
    exact congrArg Except.ok (Draft.emit_eq_extend .constant (.text literal.lexeme))
  | group left inner right =>
    rw [Factor.build, Factor.resolve]
    exact inner.build_eq sound

theorem Factors.build_eq (factors : Factors) (left : Core.Expression) {draft : Draft}
    (sound : draft.Sound table entries) :
    factors.build (draft.extend left.code []) =
      (factors.resolve table left).map fun value => draft.extend value.code [] := by
  cases factors with
  | done => rfl
  | more sign factor rest =>
    rw [Factors.build, Factors.resolve, factor.build_eq (sound.extend left.code)]
    cases factor.resolve table with
    | error error => rfl
    | ok right =>
      have emitted : ((draft.extend left.code []).extend right.code []).emit
          (.arithmetic sign.operator) .absent =
          draft.extend (Core.Expression.binary sign.operator left right).code [] := by
        simp [Draft.emit_eq_extend, Core.Expression.code]
      change rest.build (((draft.extend left.code []).extend right.code []).emit _) = _
      rw [emitted]
      exact rest.build_eq _ sound

theorem Term.build_eq (term : Term) {draft : Draft} (sound : draft.Sound table entries) :
    term.build draft = (term.resolve table).map fun value => draft.extend value.code [] := by
  cases term with
  | plain first rest =>
    rw [Term.build, Term.resolve, first.build_eq sound]
    cases first.resolve table with
    | error error => rfl
    | ok left => exact rest.build_eq left sound
  | negated sign first rest =>
    rw [Term.build, Term.resolve, first.build_eq sound]
    cases first.resolve table with
    | error error => rfl
    | ok left =>
      have emitted : (draft.extend left.code []).emit .negate .absent =
          draft.extend (Core.Expression.negate left).code [] := by
        simp [Draft.emit_eq_extend, Core.Expression.code]
      change rest.build ((draft.extend left.code []).emit .negate) = _
      rw [emitted]
      exact rest.build_eq _ sound

theorem Terms.build_eq (terms : Terms) (left : Core.Expression) {draft : Draft}
    (sound : draft.Sound table entries) :
    terms.build (draft.extend left.code []) =
      (terms.resolve table left).map fun value => draft.extend value.code [] := by
  cases terms with
  | done => rfl
  | more sign term rest =>
    rw [Terms.build, Terms.resolve, term.build_eq (sound.extend left.code)]
    cases term.resolve table with
    | error error => rfl
    | ok right =>
      have emitted : ((draft.extend left.code []).extend right.code []).emit
          (.arithmetic sign.operator) .absent =
          draft.extend (Core.Expression.binary sign.operator left right).code [] := by
        simp [Draft.emit_eq_extend, Core.Expression.code]
      change rest.build (((draft.extend left.code []).extend right.code []).emit _) = _
      rw [emitted]
      exact rest.build_eq _ sound

theorem Expression.build_eq (expression : Expression) {draft : Draft}
    (sound : draft.Sound table entries) :
    expression.build draft =
      (expression.resolve table).map fun value => draft.extend value.code [] := by
  cases expression with
  | sum first rest =>
    rw [Expression.build, Expression.resolve, first.build_eq sound]
    cases first.resolve table with
    | error error => rfl
    | ok left => exact rest.build_eq left sound

end

theorem Condition.build_eq (condition : Condition) (sound : draft.Sound table entries) :
    condition.build draft =
      (condition.resolve table).map fun tested => draft.extend tested.code [] := by
  rw [Condition.build, Condition.resolve, condition.left.build_eq sound]
  cases condition.left.resolve table with
  | error error => rfl
  | ok left =>
    change (condition.right.build (draft.extend left.code []) >>= _) = _
    rw [condition.right.build_eq (sound.extend left.code)]
    cases condition.right.resolve table with
    | error error => rfl
    | ok right =>
      simp [bind, Except.bind, Except.map, Draft.emit_eq_extend, Core.Condition.code]

theorem emitReads_eq (targets : List Token) {draft : Draft} (sound : draft.Sound table entries) :
    draft.emitReads targets = (targets.mapM table.cell).map fun cells =>
      draft.extend ((Core.Command.inOrder (cells.map .read)).code entries draft.code.nextIndex)
        [] := by
  induction targets generalizing draft with
  | nil => simp [Draft.emitReads, pure, Except.pure, Except.map, Core.Command.inOrder,
      Core.Command.code]
  | cons name rest ih =>
    have read (address : Int) : (draft.emit .read).emitAt .store address =
        draft.extend [⟨.read, .absent⟩, ⟨.store, .integer address⟩] [] := by
      simp [Draft.emit_eq_extend, Draft.emitAt_eq_extend]
    have first : draft.emitRead name = table.cell name >>= fun address =>
        .ok (draft.extend [⟨.read, .absent⟩, ⟨.store, .integer (address : Nat)⟩] []) := by
      simp only [Draft.emitRead, read]
      exact Draft.resolveVariable_bind sound name fun address =>
        .ok (draft.extend [⟨.read, .absent⟩, ⟨.store, .integer address⟩] [])
    simp only [Draft.emitReads, List.foldlM_cons, List.mapM_cons, first]
    cases table.cell name with
    | error error => rfl
    | ok address =>
      change (draft.extend _ []).emitReads rest = _
      rw [ih (sound.extend _)]
      cases rest.mapM table.cell with
      | error error => rfl
      | ok cells =>
        simp [bind, Except.bind, pure, Except.pure, Except.map, Core.Command.inOrder,
          Core.Command.code, Core.Command.size]

theorem buildWrites_eq (rest : List (Comma × Expression)) {draft : Draft}
    (sound : draft.Sound table entries) :
    buildWrites rest draft =
      ((rest.map (·.2)).mapM (Expression.resolve table)).map fun values =>
        draft.extend ((Core.Command.inOrder (values.map .write)).code entries draft.code.nextIndex)
          [] := by
  induction rest generalizing draft with
  | nil => simp [buildWrites, pure, Except.pure, Except.map, Core.Command.inOrder,
      Core.Command.code]
  | cons pair rest ih =>
    obtain ⟨comma, expression⟩ := pair
    simp only [buildWrites, List.map_cons, List.mapM_cons, expression.build_eq sound]
    cases expression.resolve table with
    | error error => rfl
    | ok value =>
      change buildWrites rest ((draft.extend value.code []).emit .write) = _
      rw [Draft.emit_eq_extend, Draft.extend_extend, List.append_nil, ih (sound.extend _)]
      cases (rest.map (·.2)).mapM (Expression.resolve table) with
      | error error => rfl
      | ok values =>
        simp [bind, Except.bind, pure, Except.pure, Except.map, Core.Command.inOrder,
          Core.Command.code, Core.Command.size]

theorem patch_arguments (inside : draft.code.PendingInside) (addresses : List Int) :
    let passed := addresses.foldl (fun (draft : Draft) address => draft.emitAt .pass address)
      (draft.emitJump .pushReturn)
    passed.patch draft.code.nextIndex (passed.code.nextIndex + 1) =
      .ok (draft.extend
        (⟨.pushReturn, .integer (draft.code.nextIndex + addresses.length + 2 : Nat)⟩ ::
          addresses.map (fun address => ⟨.pass, .integer address⟩)) []) := by
  have target : draft.code.nextIndex + (addresses.length + 1) + 1 =
      draft.code.nextIndex + addresses.length + 2 := by omega
  simp only [Draft.emitJump_eq_extend, Draft.foldl_emitAt_eq_extend, Draft.extend_extend,
    Draft.code_extend, Buffer.nextIndex_extend, List.length_map, List.length_cons,
    List.append_nil, List.cons_append, List.nil_append, target]
  have patched := Draft.patch_extend inside [] ⟨.pushReturn, .integer Buffer.placeholder⟩
    (addresses.map fun address => ⟨.pass, .integer address⟩)
    (draft.code.nextIndex + addresses.length + 2) rfl (List.mem_singleton_self _)
  simpa using patched

theorem emitCall_eq (sound : draft.Sound table entries)
    (name : Token) (arguments : List Token) :
    (do let procedure ← draft.resolveProcedure name
        draft.emitCall name procedure arguments) =
      (table.call name arguments).map fun command =>
        draft.extend (command.code entries draft.code.nextIndex) [] := by
  rw [Draft.resolveProcedure, Draft.resolve_eq sound, SymbolTable.call]
  cases table.denoted name with
  | error error => rfl
  | ok symbol =>
    simp only [Except.map, bind, Except.bind, Symbol.isProcedure_place]
    cases procedure : symbol.isProcedure with
    | false => rfl
    | true =>
      simp only [↓reduceIte, Draft.emitCall, Symbol.parameters_place]
      split
      · rfl
      · have same := Draft.mapM_resolveVariable_address sound arguments
        cases left : arguments.mapM draft.resolveVariable <;>
          cases right : arguments.mapM table.cell <;>
          simp only [left, right, Except.map, Except.ok.injEq, Except.error.injEq, reduceCtorEq]
            at same
        next =>
          subst same
          rfl
        next symbols cells =>
          have folded : symbols.foldl (fun draft symbol => draft.emitAt .pass symbol.address)
              (draft.emitJump .pushReturn) = (cells.map fun (address : Nat) => (address : Int)).foldl
              (fun (draft : Draft) address => draft.emitAt .pass address)
              (draft.emitJump .pushReturn) := by
            rw [← same, List.foldl_map]
          change (Draft.patch _ draft.code.nextIndex _ >>= fun patched =>
            Except.ok (patched.emitAt .call (symbol.place entries).address)) = _
          rw [folded, patch_arguments sound.inside, Symbol.address_place procedure]
          simp [bind, Except.bind, Draft.emitAt_eq_extend, Core.Command.code, Function.comp_def]

theorem patchHere_extend (inside : draft.code.PendingInside) (code body : List Instruction)
    (jump : Instruction) (waiting : List Nat) {index : Nat}
    (placed : index = draft.code.nextIndex + code.length) (awaited : index ∈ waiting) :
    (draft.extend (code ++ jump :: body) waiting).patchHere index =
      .ok (draft.extend (code ++
        ⟨jump.opcode, .integer (draft.code.nextIndex + code.length + 1 + body.length : Nat)⟩ ::
        body) (waiting.erase index)) := by
  have target : (draft.extend (code ++ jump :: body) waiting).code.nextIndex =
      draft.code.nextIndex + code.length + 1 + body.length := by
    simp
    omega
  rw [Draft.patchHere, target]
  exact Draft.patch_extend inside code jump body _ placed awaited

def afterFirstBranch (draft : Draft) (entries : List Nat) (condition : Core.Condition)
    (body : Core.Command) : Draft :=
  let inner := draft.code.nextIndex + condition.size + 1
  draft.extend (condition.code ++ ⟨.jumpIfZero, .integer (inner + body.size + 1 : Nat)⟩ ::
    body.code entries inner ++ [⟨.jump, .integer Buffer.placeholder⟩]) [inner + body.size]

theorem Draft.Sound.afterFirstBranch (sound : draft.Sound table entries) (condition : Core.Condition)
    (body : Core.Command) : (afterFirstBranch draft entries condition body).Sound table entries := by
  refine ⟨sound.placed, sound.natural, sound.inside.extend ?_⟩
  intro index found
  simp [Core.Condition.size, Buffer.nextIndex] at found ⊢
  omega

theorem patch_firstBranch (inside : draft.code.PendingInside) (condition : Core.Condition)
    (body : Core.Command) :
    let jumped := (draft.extend condition.code []).emitJump .jumpIfZero
    ((jumped.extend (body.code entries jumped.code.nextIndex) []).emitJump .jump).patchHere
        (draft.extend condition.code []).code.nextIndex =
      .ok (afterFirstBranch draft entries condition body) := by
  have patched := patchHere_extend inside condition.code
    (body.code entries (draft.code.nextIndex + condition.size + 1) ++
      [⟨.jump, .integer Buffer.placeholder⟩])
    ⟨.jumpIfZero, .integer Buffer.placeholder⟩
    [draft.code.nextIndex + condition.size,
      draft.code.nextIndex + condition.size + 1 + body.size] rfl (by simp [Core.Condition.size])
  simpa [afterFirstBranch, Draft.emitJump_eq_extend, Nat.add_assoc, Int.add_assoc, Nat.add_comm 1,
    Core.Condition.size] using patched

theorem patch_secondBranch (entries : List Nat) (inside : draft.code.PendingInside)
    (condition : Core.Condition) (body other : Core.Command) :
    let jumped := (draft.extend condition.code []).emitJump .jumpIfZero
    let left := afterFirstBranch draft entries condition body
    (left.extend (other.code entries left.code.nextIndex) []).patchHere
        (jumped.extend (body.code entries jumped.code.nextIndex) []).code.nextIndex =
      .ok (draft.extend
        ((Core.Command.choose condition body other).code entries draft.code.nextIndex) []) := by
  let inner := draft.code.nextIndex + condition.size + 1
  have patched := patchHere_extend inside
    (condition.code ++ ⟨.jumpIfZero, .integer (inner + body.size + 1 : Nat)⟩ ::
      body.code entries inner)
    (other.code entries (inner + body.size + 1)) ⟨.jump, .integer Buffer.placeholder⟩
    [inner + body.size] rfl (by simp [inner, Core.Condition.size]; omega)
  simpa [afterFirstBranch, inner, Core.Command.code, Nat.add_assoc, Int.add_assoc,
    Nat.add_comm 1, Core.Condition.size] using patched

theorem patch_loop (inside : draft.code.PendingInside) (condition : Core.Condition)
    (body : Core.Command) :
    let jumped := (draft.extend condition.code []).emitJump .jumpIfZero
    ((jumped.extend (body.code entries jumped.code.nextIndex) []).emitAt .jump
        draft.code.nextIndex).patchHere (draft.extend condition.code []).code.nextIndex =
      .ok (draft.extend
        ((Core.Command.loop condition body).code entries draft.code.nextIndex) []) := by
  have patched := patchHere_extend inside condition.code
    (body.code entries (draft.code.nextIndex + condition.size + 1) ++
      [⟨.jump, .integer draft.code.nextIndex⟩])
    ⟨.jumpIfZero, .integer Buffer.placeholder⟩
    [draft.code.nextIndex + condition.size] rfl (by simp [Core.Condition.size])
  simpa [Core.Command.code, Draft.emitJump_eq_extend, Draft.emitAt_eq_extend, Nat.add_assoc,
    Int.add_assoc, Nat.add_comm 1, Core.Condition.size] using patched

mutual

theorem Statement.build_eq (statement : Statement) {draft : Draft}
    (sound : draft.Sound table entries) :
    statement.build draft = (statement.resolve table).map fun command =>
      draft.extend (command.code entries draft.code.nextIndex) [] := by
  cases statement with
  | read word targets =>
    rw [Statement.build, Statement.resolve, emitReads_eq _ sound]
    cases targets.names.found.mapM table.cell <;> rfl
  | write word left first rest right =>
    rw [Statement.build, Statement.resolve, first.build_eq sound]
    cases first.resolve table with
    | error error => rfl
    | ok value =>
      change buildWrites rest ((draft.extend value.code []).emit .write) = _
      rw [Draft.emit_eq_extend, Draft.extend_extend, List.append_nil,
        buildWrites_eq rest (sound.extend _)]
      cases (rest.map (·.2)).mapM (Expression.resolve table) with
      | error error => rfl
      | ok values => simp [bind, Except.bind, Except.map, Core.Command.code, Core.Command.size]
  | choose word condition thenWord body close =>
    rw [Statement.build, Statement.resolve, condition.build_eq sound]
    cases condition.resolve table with
    | error error => rfl
    | ok tested =>
      change (body.build ((draft.extend tested.code []).emitJump .jumpIfZero) >>= _) = _
      rw [body.build_eq ((sound.extend tested.code).emitJump .jumpIfZero)]
      cases body.resolve table with
      | error error => rfl
      | ok chosen =>
        change ((Draft.extend _ _ []).emitJump .jump).patchHere _ >>= _ = _
        rw [patch_firstBranch sound.inside]
        change (afterFirstBranch draft entries tested chosen).patchHere _ = _
        rw [← @Draft.extend_nil (afterFirstBranch draft entries tested chosen)]
        exact patch_secondBranch entries sound.inside tested chosen .skip
  | chooseElse word condition thenWord body elseWord other close =>
    rw [Statement.build, Statement.resolve, condition.build_eq sound]
    cases condition.resolve table with
    | error error => rfl
    | ok tested =>
      change (body.build ((draft.extend tested.code []).emitJump .jumpIfZero) >>= _) = _
      rw [body.build_eq ((sound.extend tested.code).emitJump .jumpIfZero)]
      cases body.resolve table with
      | error error => rfl
      | ok chosen =>
        change ((Draft.extend _ _ []).emitJump .jump).patchHere _ >>= _ = _
        rw [patch_firstBranch sound.inside]
        change (other.build (afterFirstBranch draft entries tested chosen) >>= _) = _
        rw [other.build_eq (Draft.Sound.afterFirstBranch sound tested chosen)]
        cases other.resolve table with
        | error error => rfl
        | ok alternative => exact patch_secondBranch entries sound.inside tested chosen alternative
  | loop word condition doWord body close =>
    rw [Statement.build, Statement.resolve, condition.build_eq sound]
    cases condition.resolve table with
    | error error => rfl
    | ok tested =>
      change (body.build ((draft.extend tested.code []).emitJump .jumpIfZero) >>= _) = _
      rw [body.build_eq ((sound.extend tested.code).emitJump .jumpIfZero)]
      cases body.resolve table with
      | error error => rfl
      | ok repeated => exact patch_loop sound.inside tested repeated
  | assign target sign value =>
    rw [Statement.build, Statement.resolve, Draft.resolveVariable_bind sound target.token
      fun address => value.build draft >>= fun valued => .ok (valued.emitAt .store address)]
    cases table.cell target.token with
    | error error => rfl
    | ok address =>
      change (value.build draft >>= _) = _
      rw [value.build_eq sound]
      cases value.resolve table with
      | error error => rfl
      | ok assigned =>
        simp [bind, Except.bind, Except.map, Draft.emitAt_eq_extend, Core.Command.code]
  | call name arguments => exact emitCall_eq sound name.token _

theorem Statements.build_eq (statements : Statements) {draft : Draft}
    (sound : draft.Sound table entries) :
    statements.build draft = (statements.resolve table).map fun command =>
      draft.extend (command.code entries draft.code.nextIndex) [] := by
  cases statements with
  | empty => simp [Statements.build, Statements.resolve, Except.map, Core.Command.code]
  | last statement => exact statement.build_eq sound
  | skip semicolon rest => exact rest.build_eq sound
  | more statement semicolon rest =>
    rw [Statements.build, Statements.resolve, statement.build_eq sound]
    cases statement.resolve table with
    | error error => rfl
    | ok first =>
      change rest.build (draft.extend _ []) = _
      rw [rest.build_eq (sound.extend _)]
      cases rest.resolve table with
      | error error => rfl
      | ok second => simp [bind, Except.bind, Except.map, Core.Command.code]

end

end Pascalet.Tree
