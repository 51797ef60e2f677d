import Pascalet.Proofs.Core.Context
import Pascalet.Proofs.Descent.Program
import Pascalet.Proofs.Layout.Statement

namespace Pascalet

theorem Symbol.Fits.place_append {cells : Nat} {entries parameterCounts : List Nat} {symbol : Symbol}
    (fits : symbol.Fits cells parameterCounts) (length : parameterCounts.length = entries.length)
    (others : List Nat) : symbol.place (entries ++ others) = symbol.place entries := by
  obtain ⟨number, address, counted, _⟩ := fits
  unfold Symbol.place
  split
  next procedure =>
    have inside := (List.getElem?_eq_some_iff.mp (counted procedure)).1
    rw [length] at inside
    simp [address, List.getElem?_append_left inside]
  · rfl

theorem Context.Fits.place_append {context : Context} {entries : List Nat} (fits : context.Fits)
    (length : context.parameterCounts.length = entries.length) (others : List Nat) :
    context.table.place (entries ++ others) = context.table.place entries := by
  simp only [SymbolTable.place, SymbolTable.mk.injEq, and_true]
  exact List.map_congr_left fun symbol found => (fits symbol found).place_append length others

namespace OpenProcedure

def addLocals (count : Nat) (procedure : OpenProcedure) : OpenProcedure :=
  { procedure with localCount := procedure.localCount + count }

def numbered (types : List DataType) (firstCell : Nat) : List (DataType × Int) :=
  types.zip ((List.range' firstCell types.length).map fun (cell : Nat) => (cell : Int))

def addParameters (types : List DataType) (firstCell : Nat) (procedure : OpenProcedure) :
    OpenProcedure :=
  { procedure with parameters := procedure.parameters ++ numbered types firstCell }

@[simp]
theorem numbered_types (types : List DataType) (firstCell : Nat) :
    (numbered types firstCell).map (·.1) = types :=
  List.map_fst_zip (by simp)

theorem numbered_cells (types : List DataType) (firstCell : Nat) :
    (numbered types firstCell).map (·.2) =
      (List.range' firstCell types.length).map fun (cell : Nat) => (cell : Int) :=
  List.map_snd_zip (by simp)

theorem length_numbered (types : List DataType) (firstCell : Nat) :
    (numbered types firstCell).length = types.length := by
  simp [numbered]

end OpenProcedure

namespace Draft

/-- A draft that has reached a context, with code behind its own. -/
def declaring (draft : Draft) (context : Context) (entries : List Nat)
    (procedure : Option OpenProcedure) (code : List Instruction) : Draft :=
  { draft with
    symbols := context.table.place entries
    code := { draft.code.extend code [] with nextAddress := context.cells }
    procedure }

variable {draft : Draft} {context : Context} {entries : List Nat}
  {procedure : Option OpenProcedure} {code more : List Instruction}

theorem declaring_extend : (draft.declaring context entries procedure code).extend more [] =
    draft.declaring context entries procedure (code ++ more) := by
  simp [declaring, extend, Buffer.extend]

@[simp]
theorem nextIndex_declaring : (draft.declaring context entries procedure code).code.nextIndex =
    draft.code.nextIndex + code.length :=
  @Buffer.nextIndex_extend draft.code code []

theorem Sound.declaring (inside : draft.code.PendingInside) (fits : context.Fits) :
    (draft.declaring context entries procedure code).Sound context.table entries :=
  ⟨rfl, fun _ found => fits.natural found, inside.extend (by simp)⟩

theorem checkFresh_declaring (name : Token) :
    (draft.declaring context entries procedure code).checkFresh name = context.checkFresh name := by
  simp [checkFresh, Context.checkFresh, declaring]

theorem enterCell_declaring {category : Category} (other : category ≠ .procedure) (type : DataType)
    (name : Token) :
    (draft.declaring context entries procedure code).enterCell category type name =
      draft.declaring (context.enterCell category type name) entries procedure code := by
  simp [enterCell, Context.enterCell, declaring, Buffer.allocate, SymbolTable.place,
    SymbolTable.declare, Symbol.place, Symbol.isProcedure, other]

theorem declareVariable_eq (type : DataType) (name : Token) :
    (draft.declaring context entries procedure code).declareVariable type name =
      (context.declareCell .var (type, name)).map fun after =>
        draft.declaring after entries (procedure.map OpenProcedure.addLocal)
          (code ++ [⟨.reserve, .integer 1⟩]) := by
  rw [declareVariable, Context.declareCell, checkFresh_declaring]
  cases context.checkFresh name with
  | error error => rfl
  | ok _ =>
    rw [enterCell_declaring (by simp)]
    simp [bind, Except.bind, Except.map, emitAt_eq_extend, declaring, extend, Buffer.extend]

theorem declareParameter_eq (type : DataType) (name : Token) :
    (draft.declaring context entries procedure code).declareParameter type name =
      (context.declareCell .parameter (type, name)).map fun after =>
        draft.declaring after entries (procedure.map (·.addParameter type context.cells)) code := by
  rw [declareParameter, Context.declareCell, checkFresh_declaring]
  cases context.checkFresh name with
  | error error => rfl
  | ok _ =>
    rw [enterCell_declaring (by simp)]
    rfl

theorem declareVariables_eq (names : List (DataType × Token)) :
    names.foldlM (fun draft declared => draft.declareVariable declared.1 declared.2)
        (draft.declaring context entries procedure code) =
      (names.foldlM (Context.declareCell .var) context).map fun after =>
        draft.declaring after entries (procedure.map (·.addLocals names.length))
          (code ++ Core.reserveAll names.length) := by
  induction names generalizing context procedure code with
  | nil => simp [pure, Except.pure, Except.map, OpenProcedure.addLocals, Core.reserveAll]
  | cons declared rest ih =>
    rw [List.foldlM_cons, List.foldlM_cons, declareVariable_eq]
    cases context.declareCell .var declared with
    | error error => rfl
    | ok after =>
      change rest.foldlM _ (draft.declaring after entries _ _) = _
      rw [ih]
      simp [Function.comp_def, OpenProcedure.addLocals, OpenProcedure.addLocal, Core.reserveAll,
        List.replicate_succ, Nat.add_assoc, Nat.add_comm 1]
      rfl

theorem declareParameters_eq (names : List (DataType × Token)) :
    names.foldlM (fun draft declared => draft.declareParameter declared.1 declared.2)
        (draft.declaring context entries procedure code) =
      (names.foldlM (Context.declareCell .parameter) context).map fun after =>
        draft.declaring after entries
          (procedure.map (·.addParameters (names.map (·.1)) context.cells)) code := by
  induction names generalizing context procedure code with
  | nil =>
    simp [pure, Except.pure, Except.map, OpenProcedure.addParameters, OpenProcedure.numbered]
  | cons declared rest ih =>
    rw [List.foldlM_cons, List.foldlM_cons, declareParameter_eq]
    cases done : context.declareCell .parameter declared with
    | error error => rfl
    | ok after =>
      obtain ⟨_, rfl⟩ := Context.of_declareCell done
      change rest.foldlM _ (draft.declaring _ entries _ _) = _
      rw [ih]
      simp [Function.comp_def, OpenProcedure.addParameters, OpenProcedure.addParameter,
        OpenProcedure.numbered, List.range'_succ, Context.enterCell]
      rfl

theorem declareProcedure_declaring (fits : context.Fits)
    (length : context.parameterCounts.length = entries.length) (name : Token) (entry firstCell : Nat)
    (types : List DataType) :
    let opened : OpenProcedure :=
      { name := name.lexeme, entry, parameters := OpenProcedure.numbered types firstCell }
    (draft.declaring context entries (some opened) code).declareProcedure =
      draft.declaring (context.declareProcedure name types) (entries ++ [entry]) (some opened)
        (code ++ Core.storeAll firstCell types.length) := by
  intro opened
  have symbols : (context.table.place entries).declare
      { name := name.lexeme, type := none, category := .procedure, scope := globalScope,
        address := entry, parameters := opened.parameters.map (·.1) } =
      (context.declareProcedure name types).table.place (entries ++ [entry]) := by
    have placed := fits.place_append length [entry]
    simp only [SymbolTable.place, SymbolTable.mk.injEq, and_true] at placed
    simp [Context.declareProcedure, SymbolTable.declare, SymbolTable.place, placed, Symbol.place,
      Symbol.isProcedure, length, opened]
  have declared : { draft.declaring context entries (some opened) code with
      symbols := (context.table.place entries).declare
        { name := name.lexeme, type := none, category := .procedure, scope := globalScope,
          address := entry, parameters := opened.parameters.map (·.1) } } =
      draft.declaring (context.declareProcedure name types) (entries ++ [entry]) (some opened)
        code := by
    rw [symbols]
    rfl
  have stores : opened.parameters.reverse.map (·.2) =
      (List.range' firstCell types.length).reverse.map fun (cell : Nat) => (cell : Int) := by
    rw [List.map_reverse, OpenProcedure.numbered_cells, List.map_reverse]
  have folded := foldl_emitAt_eq_extend (draft.declaring (context.declareProcedure name types)
    (entries ++ [entry]) (some opened) code) .store (opened.parameters.reverse.map (·.2))
  rw [List.foldl_map, stores, declaring_extend, List.map_map] at folded
  exact (congrArg (opened.parameters.reverse.foldl fun (draft : Draft) parameter =>
    draft.emitAt .store parameter.2) declared).trans folded

theorem closeProcedure_declaring (opened : OpenProcedure) :
    (draft.declaring context entries (some opened) code).closeProcedure =
      draft.declaring context.closeProcedure entries none (code ++
        [⟨.release, .integer (opened.parameters.length + opened.localCount : Nat)⟩,
          ⟨.ret, .absent⟩]) := by
  simp [closeProcedure, declaring, Context.closeProcedure, emitAt_eq_extend, emit_eq_extend, extend,
    Buffer.extend, SymbolTable.exitScope, SymbolTable.place]

end Draft

namespace Tree

variable {draft : Draft} {context : Context} {entries : List Nat}
  {procedure : Option OpenProcedure} {code : List Instruction}

theorem foldlM_flatMap {α β γ : Type} (list : List α) (inner : α → List β)
    (step : γ → β → Except CompileError γ) (start : γ) :
    (list.flatMap inner).foldlM step start =
      list.foldlM (fun reached item => (inner item).foldlM step reached) start := by
  induction list generalizing start with
  | nil => rfl
  | cons item rest ih =>
    rw [List.flatMap_cons, List.foldlM_append, List.foldlM_cons]
    congr 1
    funext reached
    exact ih reached

theorem Variables.build_eq_foldlM (vars : Variables) (draft : Draft) :
    vars.build draft = vars.typed.declared.foldlM
      (fun draft declared => draft.declareVariable declared.1 declared.2) draft := by
  rw [Variables.build, Typed.declared, List.foldlM_map]

theorem Procedure.buildParameters_eq_foldlM (declared : Procedure) (draft : Draft) :
    declared.groups.foldlM (fun draft typed => typed.buildParameters draft) draft =
      declared.parameterNames.foldlM
        (fun draft declared => draft.declareParameter declared.1 declared.2) draft := by
  rw [Procedure.parameterNames, foldlM_flatMap]
  congr 1
  funext draft typed
  rw [Typed.buildParameters, Typed.declared, List.foldlM_map]

theorem Procedure.buildLocals_eq_foldlM (declared : Procedure) (draft : Draft) :
    declared.locals.foldlM (fun draft vars => vars.build draft) draft =
      declared.localNames.foldlM
        (fun draft declared => draft.declareVariable declared.1 declared.2) draft := by
  rw [Procedure.localNames, foldlM_flatMap]
  congr 1
  funext draft vars
  exact vars.build_eq_foldlM draft

theorem Procedure.build_eq (declared : Procedure) (inside : draft.code.PendingInside)
    (fits : context.Fits) (length : context.parameterCounts.length = entries.length) :
    let entry := (draft.declaring context entries none code).code.nextIndex
    declared.build (draft.declaring context entries none code) =
      (declared.resolve context).map fun (resolved, after) =>
        draft.declaring after (entries ++ [entry]) none
          (code ++ resolved.code (entries ++ [entry]) entry) := by
  intro entry
  rw [Procedure.build, Procedure.resolve, Draft.openProcedure, Context.openProcedure,
    Draft.checkFresh_declaring]
  cases context.checkFresh declared.name.token with
  | error error => rfl
  | ok _ =>
    let opened := { context with table := context.table.enterScope declared.name.token.lexeme }
    let heading : OpenProcedure := { name := declared.name.token.lexeme, entry }
    change (declared.groups.foldlM (fun draft typed => typed.buildParameters draft)
      (draft.declaring opened entries (some heading) code) >>= _) = Except.map _
        (declared.parameterNames.foldlM (Context.declareCell .parameter) opened >>= _)
    rw [declared.buildParameters_eq_foldlM, Draft.declareParameters_eq]
    cases headed : declared.parameterNames.foldlM (Context.declareCell .parameter) opened with
    | error error => rfl
    | ok after =>
      have headedFits : after.Fits := @Context.Fits.declareCells opened _ _ fits (by simp) _ headed
      have headedLength : after.parameterCounts.length = entries.length := by
        rw [Context.parameterCounts_of_declareCells headed]
        exact length
      let types := declared.parameterNames.map (·.1)
      let signed : OpenProcedure :=
        { heading with parameters := OpenProcedure.numbered types context.cells }
      change (declared.locals.foldlM (fun draft vars => vars.build draft)
        (draft.declaring after entries (some signed) code).declareProcedure >>= _) = Except.map _
          (declared.localNames.foldlM (Context.declareCell .var)
            (after.declareProcedure declared.name.token types) >>= _)
      rw [Draft.declareProcedure_declaring headedFits headedLength, declared.buildLocals_eq_foldlM,
        Draft.declareVariables_eq]
      cases entering : declared.localNames.foldlM (Context.declareCell .var)
        (after.declareProcedure declared.name.token types) with
      | error error => rfl
      | ok entered =>
        have enteredFits : entered.Fits :=
          (headedFits.declareProcedure _ _).declareCells (by simp) entering
        change (declared.body.build (draft.declaring entered _ _ _) >>= _) =
          Except.map _ (declared.body.resolve entered.table >>= _)
        rw [declared.body.build_eq (Draft.Sound.declaring inside enteredFits)]
        cases declared.body.resolve entered.table with
        | error error => rfl
        | ok body =>
          change Except.ok (Draft.extend _ _ _).closeProcedure = Except.ok _
          rw [Draft.declaring_extend]
          change Except.ok (Draft.declaring _ _ _ (some _) _).closeProcedure = _
          rw [Draft.closeProcedure_declaring]
          simp [Core.Procedure.code, OpenProcedure.addLocals, OpenProcedure.length_numbered, heading,
            types, entry, Nat.add_assoc]

end Tree

end Pascalet
