import Pascalet.Compiler.Program
import Pascalet.Proofs.Layout.Declaration

namespace Pascalet

namespace Draft

variable {draft : Draft}

theorem nextIndex_of_patch {patched : Draft} {index target : Nat}
    (done : draft.patch index target = .ok patched) :
    patched.code.nextIndex = draft.code.nextIndex := by
  unfold patch at done
  split at done
  next code fixed =>
    cases done
    exact Buffer.size_of_patch fixed
  next => cases done

def patchAll (indices : List Nat) (target : Nat) (draft : Draft) : Except CompileError Draft :=
  indices.foldlM (fun draft index => draft.patch index target) draft

theorem foldlM_patchHere (indices : List Nat) (draft : Draft) :
    indices.foldlM patchHere draft = patchAll indices draft.code.nextIndex draft := by
  induction indices generalizing draft with
  | nil => rfl
  | cons index rest ih =>
    rw [patchAll, List.foldlM_cons, List.foldlM_cons, patchHere]
    cases done : draft.patch index draft.code.nextIndex with
    | error error => rfl
    | ok patched =>
      rw [← nextIndex_of_patch done]
      exact ih patched

theorem nextIndex_of_patchAll {indices : List Nat} {target : Nat} {patched : Draft}
    (done : patchAll indices target draft = .ok patched) :
    patched.code.nextIndex = draft.code.nextIndex := by
  induction indices generalizing draft with
  | nil =>
    cases done
    rfl
  | cons index rest ih =>
    rw [patchAll, List.foldlM_cons] at done
    cases first : draft.patch index target with
    | error error => simp [first, bind, Except.bind] at done
    | ok between =>
      rw [first] at done
      rw [ih done, nextIndex_of_patch first]

/-- What is added to a draft does not matter to the jumps that it has. -/
theorem patchAll_map {add : Draft → Draft} {indices : List Nat} {target : Nat}
    (commutes : ∀ (draft : Draft) (index : Nat), index < draft.code.nextIndex →
      (add draft).patch index target = (draft.patch index target).map add)
    (placed : ∀ index ∈ indices, index < draft.code.nextIndex) :
    patchAll indices target (add draft) = (patchAll indices target draft).map add := by
  induction indices generalizing draft with
  | nil => rfl
  | cons index rest ih =>
    rw [patchAll, patchAll, List.foldlM_cons, List.foldlM_cons,
      commutes draft index (placed index List.mem_cons_self)]
    cases first : draft.patch index target with
    | error error => rfl
    | ok between =>
      refine ih fun other found => ?_
      rw [nextIndex_of_patch first]
      exact placed other (List.mem_cons_of_mem index found)

theorem patch_emitJump_of_lt {index : Nat} (opcode : Opcode) (target : Nat)
    (placed : index < draft.code.nextIndex) :
    (draft.emitJump opcode).patch index target = (draft.patch index target).map (·.emitJump opcode) := by
  have behind : ∀ other ∈ [draft.code.nextIndex], draft.code.size ≤ other := by
    simp [Buffer.nextIndex]
  have commuted := Buffer.patch_extend_of_lt [⟨opcode, .integer Buffer.placeholder⟩] target placed
    behind
  simp only [patch, emitJump, Buffer.emitJump_eq_extend, commuted]
  cases fixed : draft.code.patch index target with
  | error fault => rfl
  | ok patched => simp only [Except.map, Buffer.nextIndex, Buffer.size_of_patch fixed]

theorem patch_emitJump (inside : draft.code.PendingInside) (opcode : Opcode) (target : Nat) :
    (draft.emitJump opcode).patch draft.code.nextIndex target =
      .ok (draft.extend [⟨opcode, .integer target⟩] []) := by
  have patched := patch_extend inside [] ⟨opcode, .integer Buffer.placeholder⟩ [] target
    rfl (List.mem_singleton_self draft.code.nextIndex)
  simpa [emitJump_eq_extend] using patched

variable {context : Context} {entries : List Nat} {procedure : Option OpenProcedure}
  {code : List Instruction}

theorem patch_declaring_of_lt {index : Nat} (target : Nat) (placed : index < draft.code.nextIndex) :
    (draft.declaring context entries procedure code).patch index target =
      (draft.patch index target).map (·.declaring context entries procedure code) := by
  have behind : ∀ other ∈ ([] : List Nat), draft.code.size ≤ other := by simp
  simp only [patch, declaring, Buffer.patch_setAddress,
    Buffer.patch_extend_of_lt code target placed behind]
  cases draft.code.patch index target <;> rfl

structure Reached (draft : Draft) (context : Context) (entries : List Nat) : Prop where
  placed : draft.symbols = context.table.place entries
  cells : draft.code.nextAddress = context.cells
  closed : draft.procedure = none
  inside : draft.code.PendingInside
  fits : context.Fits
  length : context.parameterCounts.length = entries.length

theorem Reached.declaring_self (reached : draft.Reached context entries) :
    draft.declaring context entries none [] = draft := by
  simp [declaring, ← reached.placed, ← reached.cells, ← reached.closed]

theorem reached_declaring (inside : draft.code.PendingInside) (code : List Instruction)
    (fits : context.Fits) (length : context.parameterCounts.length = entries.length) :
    (draft.declaring context entries none code).Reached context entries :=
  { placed := rfl, cells := rfl, closed := rfl, inside := inside.extend (by simp), fits, length }

theorem Reached.emitJump (reached : draft.Reached context entries) (opcode : Opcode) :
    (draft.emitJump opcode).Reached context entries := by
  rw [emitJump_eq_extend]
  exact { reached with inside := reached.inside.extend (by simp [Buffer.nextIndex]) }

theorem Reached.patch {patched : Draft} {index target : Nat} (reached : draft.Reached context entries)
    (done : draft.patch index target = .ok patched) : patched.Reached context entries := by
  unfold Draft.patch at done
  split at done
  next code fixed =>
    cases done
    have inside := reached.inside.patch fixed
    have cells : code.nextAddress = draft.code.nextAddress := by
      unfold Buffer.patch at fixed
      split at fixed <;> cases fixed
      rfl
    exact { reached with inside, cells := cells.trans reached.cells }
  next => cases done

theorem Reached.patchAll {indices : List Nat} {target : Nat} {patched : Draft}
    (reached : draft.Reached context entries)
    (done : Draft.patchAll indices target draft = .ok patched) : patched.Reached context entries := by
  induction indices generalizing draft with
  | nil =>
    cases done
    exact reached
  | cons index rest ih =>
    rw [Draft.patchAll, List.foldlM_cons] at done
    cases first : draft.patch index target with
    | error error => simp [first, bind, Except.bind] at done
    | ok between =>
      rw [first] at done
      exact ih (reached.patch first) done

theorem declaring_declaring {other : Context} {others : List Nat} {more : List Instruction} :
    (draft.declaring context entries procedure code).declaring other others none more =
      draft.declaring other others none (code ++ more) := by
  simp [declaring, Buffer.extend]

theorem extend_declaring {more : List Instruction} :
    (draft.extend code []).declaring context entries procedure more =
      draft.declaring context entries procedure (code ++ more) := by
  simp [declaring, extend]

theorem patchAll_procedure {skips : List Nat} {patched : Draft} {target : Nat}
    (inside : patched.code.PendingInside)
    (skipped : ∀ index ∈ skips, index < draft.code.nextIndex)
    (done : patchAll skips target draft = .ok patched) :
    patchAll (skips ++ [draft.code.nextIndex]) target
        ((draft.emitJump .jump).declaring context entries none code) =
      .ok ((patched.extend [⟨.jump, .integer target⟩] []).declaring context entries none code) := by
  have commutes (draft : Draft) (index : Nat) (placed : index < draft.code.nextIndex) :
      ((draft.emitJump .jump).declaring context entries none code).patch index target =
        (draft.patch index target).map
          fun fixed => (fixed.emitJump .jump).declaring context entries none code := by
    rw [patch_declaring_of_lt target (by simp; omega), patch_emitJump_of_lt .jump target placed]
    cases draft.patch index target <;> rfl
  have earlier := patchAll_map commutes skipped
  simp only [patchAll] at earlier done ⊢
  rw [List.foldlM_append, earlier, done]
  change (List.foldlM _ ((patched.emitJump .jump).declaring context entries none code) _) = _
  rw [List.foldlM_cons, ← nextIndex_of_patchAll done, patch_declaring_of_lt target (by simp),
    patch_emitJump inside]
  rfl

end Draft

namespace Tree

/-- Declarations are laid out as their core form says, behind procedures whose jumps at `skips` wait for
the end of their group. What the draft is when those jumps have a target is `patched`. -/
def LaysOut (items : List Item) : Prop :=
  ∀ {skips : List Nat} {draft : Draft} {patched : Nat → Draft} {context : Context}
    {entries : List Nat}, draft.Reached context entries →
    (∀ index ∈ skips, index < draft.code.nextIndex) →
    (∀ target, Draft.patchAll skips target draft = .ok (patched target)) →
    buildItems skips items draft = (resolveItems items context).map fun (core, after) =>
      (patched (draft.code.nextIndex + Core.groupSize core)).declaring after
        (Core.itemsEntries entries draft.code.nextIndex core) none
        (Core.itemsCode entries draft.code.nextIndex core)

theorem laysOut_nil : LaysOut [] := by
  intro skips draft patched context entries reached skipped patches
  rw [buildItems, Draft.foldlM_patchHere, patches]
  exact congrArg Except.ok (reached.patchAll (patches _)).declaring_self.symm

theorem laysOut_vars (declared : Variables) {rest : List Item} (ih : LaysOut rest) :
    LaysOut (.vars declared :: rest) := by
  intro skips draft patched context entries reached skipped patches
  have fixed := reached.patchAll (patches draft.code.nextIndex)
  have sameIndex := Draft.nextIndex_of_patchAll (patches draft.code.nextIndex)
  rw [buildItems, Draft.foldlM_patchHere, patches, resolveItems]
  change (declared.build (patched draft.code.nextIndex) >>= _) = _
  rw [declared.build_eq_foldlM, ← fixed.declaring_self, Draft.declareVariables_eq]
  cases entering : declared.typed.declared.foldlM (Context.declareCell .var) context with
  | error error => rfl
  | ok after =>
    have length : after.parameterCounts.length = entries.length := by
      rw [Context.parameterCounts_of_declareCells entering]
      exact reached.length
    have entered := Draft.reached_declaring fixed.inside (Core.reserveAll declared.typed.declared.length)
      (reached.fits.declareCells (by simp) entering) length
    change buildItems [] rest ((patched draft.code.nextIndex).declaring after entries none
      (Core.reserveAll declared.typed.declared.length)) =
        Except.map _ (resolveItems rest after >>= _)
    rw [ih entered (by simp) fun _ => rfl]
    cases resolveItems rest after with
    | error error => rfl
    | ok resolved =>
      obtain ⟨core, final⟩ := resolved
      change Except.ok (Draft.declaring _ _ _ _ _) = Except.ok (Draft.declaring _ _ _ _ _)
      rw [Draft.declaring_declaring]
      simp [Core.groupSize, Core.itemsEntries, Core.itemsCode, sameIndex]

theorem laysOut_procedure (declared : Procedure) {rest : List Item} (ih : LaysOut rest) :
    LaysOut (.procedure declared :: rest) := by
  intro skips draft patched context entries reached skipped patches
  have jumped := reached.emitJump .jump
  rw [buildItems, resolveItems, ← jumped.declaring_self,
    declared.build_eq jumped.inside reached.fits reached.length, jumped.declaring_self]
  cases resolving : declared.resolve context with
  | error error => rfl
  | ok resolved =>
    obtain ⟨procedure, after⟩ := resolved
    obtain ⟨headed, entered, steps⟩ := Procedure.of_resolve resolving
    have length : after.parameterCounts.length =
        (entries ++ [(draft.emitJump .jump).code.nextIndex]).length := by
      simp [steps.parameterCounts, reached.length]
    have built := Draft.reached_declaring jumped.inside
      ([] ++ procedure.code (entries ++ [(draft.emitJump .jump).code.nextIndex])
        (draft.emitJump .jump).code.nextIndex) (steps.afterFits reached.fits) length
    have skippedAll : ∀ index ∈ skips ++ [draft.code.nextIndex],
        index < ((draft.emitJump .jump).declaring after
          (entries ++ [(draft.emitJump .jump).code.nextIndex]) none
          ([] ++ procedure.code (entries ++ [(draft.emitJump .jump).code.nextIndex])
            (draft.emitJump .jump).code.nextIndex)).code.nextIndex := by
      intro index found
      rw [Draft.nextIndex_declaring, Draft.nextIndex_emitJump]
      rcases List.mem_append.mp found with earlier | last
      · have := skipped index earlier
        omega
      · have := List.mem_singleton.mp last
        omega
    change buildItems _ rest ((draft.emitJump .jump).declaring after _ none _) =
      Except.map _ (resolveItems rest after >>= _)
    rw [ih built skippedAll fun target => Draft.patchAll_procedure
      (reached.patchAll (patches target)).inside skipped (patches target)]
    cases resolveItems rest after with
    | error error => rfl
    | ok others =>
      obtain ⟨core, final⟩ := others
      change Except.ok (Draft.declaring _ _ _ _ _) = Except.ok (Draft.declaring _ _ _ _ _)
      rw [Draft.declaring_declaring, Draft.extend_declaring]
      simp [Core.groupSize, Core.itemsEntries, Core.itemsCode, Nat.add_assoc]

theorem laysOut (items : List Item) : LaysOut items := by
  induction items with
  | nil => exact laysOut_nil
  | cons item rest ih =>
    cases item with
    | vars declared => exact laysOut_vars declared ih
    | procedure declared => exact laysOut_procedure declared ih

theorem Program.build_eq (program : Program) {draft : Draft} (reached : draft.Reached {} []) :
    program.build draft = program.resolve.map fun (core, context) =>
      { draft with name := program.name.lexeme }.declaring context
        (core.entries draft.code.nextIndex) none (core.code draft.code.nextIndex) := by
  let named := { draft with name := program.name.lexeme }
  have started : (named.extend [⟨.start, .absent⟩] []).Reached {} [] :=
    { reached with inside := reached.inside.extend (by simp) }
  rw [Program.build, Program.resolve, Draft.emit_eq_extend,
    laysOut program.items started (by simp) fun _ => rfl]
  cases resolving : resolveItems program.items {} with
  | error error => rfl
  | ok resolved =>
    obtain ⟨items, context⟩ := resolved
    obtain ⟨fits, _⟩ := fits_of_resolveItems resolving started.fits
    change (program.body.build (Draft.declaring _ context _ none _) >>= _) =
      Except.map _ (program.body.resolve context.table >>= _)
    have inside : named.code.PendingInside := reached.inside
    rw [Draft.extend_declaring, program.body.build_eq (Draft.Sound.declaring inside fits)]
    cases program.body.resolve context.table with
    | error error => rfl
    | ok body =>
      change Except.ok (Draft.emit (Draft.extend _ _ _) _ _) = Except.ok _
      rw [Draft.emit_eq_extend, Draft.declaring_extend, Draft.declaring_extend]
      simp [Core.Program.code, Core.Program.entries, Core.Program.bodyStart, Nat.add_assoc,
        Nat.add_comm 1, named]

end Tree

def Core.Program.assemble (core : Core.Program) (name : String) (context : Context) :
    Pascalet.Program :=
  { name
    symbols := context.table.place (core.entries 0)
    code := { instructions := (core.code 0).toArray, nextAddress := context.cells } }

theorem Program.compile_eq {program : Tree.Program} {source : String}
    (spells : program.Spells (tokenize source).tokens) (complete : (tokenize source).failure = none) :
    Program.compile source =
      program.resolve.map fun (core, context) => core.assemble program.name.lexeme context := by
  obtain ⟨last, tokens⟩ := spells
  have start : ({} : Draft).Reached {} [] :=
    { placed := rfl, cells := rfl, closed := rfl, inside := by simp [Buffer.PendingInside],
      fits := Context.fits_empty, length := rfl }
  rw [Program.compile, Program.ofTokens, tokens, complete, Tree.Program.advanceAll_tokens,
    program.build_eq start]
  cases program.resolve with
  | error error => rfl
  | ok resolved =>
    simp [Except.map, Draft.declaring, Buffer.extend, Core.Program.assemble, Buffer.nextIndex,
      Buffer.size]

end Pascalet
