import Pascalet.Proofs.Backpatching.Answers

namespace Pascalet

/-- The buffer that holds nothing but jumps of others, none of which has a target. -/
def Buffer.foreign (jumps : Nat) : Buffer :=
  Nat.repeat (·.emitJump .jump) jumps {}

namespace Buffer

theorem foreign_succ (jumps : Nat) : foreign (jumps + 1) = (foreign jumps).emitJump .jump := rfl

@[simp]
theorem size_foreign (jumps : Nat) : (foreign jumps).size = jumps := by
  induction jumps with
  | zero => rfl
  | succ jumps ih => exact (Array.size_push _).trans (congrArg (· + 1) ih)

@[simp]
theorem pending_foreign (jumps : Nat) : (foreign jumps).pending = List.range jumps := by
  induction jumps with
  | zero => rfl
  | succ jumps ih =>
    have next : (foreign jumps).nextIndex = jumps := size_foreign jumps
    rw [foreign_succ, emitJump, ih, next, List.range_succ]

theorem getElem?_foreign {jumps index : Nat} (there : index < jumps) :
    (foreign jumps).instructions[index]? = some ⟨.jump, .integer placeholder⟩ := by
  induction jumps with
  | zero => cases there
  | succ jumps ih =>
    have added : (foreign (jumps + 1)).instructions =
        (foreign jumps).instructions.push ⟨.jump, .integer placeholder⟩ := rfl
    have size : (foreign jumps).instructions.size = jumps := size_foreign jumps
    rw [added, Array.getElem?_push, size]
    split
    · rfl
    · exact ih (by omega)

end Buffer

structure Moment where
  goals : List Goal
  tokens : List Token
  draft : Draft

namespace Moment

/-- The moment behind another one, with what the topmost goal has done to the code: the goal has passed
or has taken the token. -/
inductive Next : Moment → List Buffer.Change → Moment → Prop where
  | pass {goal : Goal} {later : List Goal} {token : Token} {tokens : List Token}
    {draft passed : Draft} (met : goal.meet token draft = .ok (.pass passed)) :
    Next ⟨goal :: later, token :: tokens, draft⟩ (goal.changes token draft)
      ⟨later, token :: tokens, passed⟩
  | take {goal : Goal} {goals later : List Goal} {token : Token} {tokens : List Token}
    {draft taken : Draft} (met : goal.meet token draft = .ok (.take goals taken)) :
    Next ⟨goal :: later, token :: tokens, draft⟩ (goal.changes token draft)
      ⟨goals ++ later, tokens, taken⟩

/-- Some moment comes to another one. The history is what its goals have done to the code since then. -/
inductive Reaches : Moment → List Buffer.Change → Moment → Prop where
  | refl (moment : Moment) : Reaches moment [] moment
  | next {moment behind last : Moment} {changes rest : List Buffer.Change}
    (step : moment.Next changes behind) (further : Reaches behind rest last) :
    Reaches moment (changes ++ rest) last

def first (jumps : Nat) (source : String) : Moment :=
  ⟨Goal.program, (tokenize source).tokens, { code := .foreign jumps }⟩

/-- The account of a history that has come to a moment. What was emitted are different jumps, and each
of them was patched, once, or one goal waits for it; the jumps of others wait as they were. -/
structure Accounts (jumps : Nat) (history : List Buffer.Change) (moment : Moment) : Prop where
  leads : (Buffer.foreign jumps).Leads history moment.draft.code
  distinct : (Buffer.jumpsIn jumps history).Nodup
  once : (Buffer.patchedIn history ++ moment.goals.flatMap Goal.waiting).Perm
    (Buffer.jumpsIn jumps history)
  untouched : ∀ index < jumps, index ∉ Buffer.patchedIn history ∧
    index ∈ moment.draft.code.pending ∧
    moment.draft.code.instructions[index]? = some ⟨.jump, .integer Buffer.placeholder⟩

theorem Reaches.trans {moment middle last : Moment} {history rest : List Buffer.Change}
    (reached : moment.Reaches history middle) (further : middle.Reaches rest last) :
    moment.Reaches (history ++ rest) last := by
  induction reached with
  | refl moment => exact further
  | next step _ ih =>
    rw [List.append_assoc]
    exact .next step (ih further)

section Yields

variable {start : Buffer} {history changes : List Buffer.Change} {moment : Moment} {others : List Nat}

/-- All that a step does to the code is in its changes, and the jumps that wait for a target are always
those of the goals. -/
theorem Next.yields {next : Moment} (step : moment.Next changes next)
    (yields : start.Yields history (moment.goals.flatMap Goal.waiting ++ others) moment.draft.code) :
    start.Yields (history ++ changes) (next.goals.flatMap Goal.waiting ++ others) next.draft.code := by
  cases step with
  | @pass goal later token tokens draft passed met =>
    rw [List.flatMap_cons, List.append_assoc] at yields
    have answered := Goal.yields_meet goal token yields
    rw [met] at answered
    exact answered
  | @take goal goals later token tokens draft taken met =>
    rw [List.flatMap_cons, List.append_assoc] at yields
    have answered := Goal.yields_meet goal token yields
    rw [met] at answered
    rw [List.flatMap_append, List.append_assoc]
    exact answered

theorem Reaches.yields {last : Moment} (reached : moment.Reaches changes last)
    (yields : start.Yields history (moment.goals.flatMap Goal.waiting ++ others) moment.draft.code) :
    start.Yields (history ++ changes) (last.goals.flatMap Goal.waiting ++ others) last.draft.code := by
  induction reached generalizing history with
  | refl moment => exact yields.nothing
  | next step _ ih =>
    rw [← List.append_assoc]
    exact ih (step.yields yields)

end Yields

variable {jumps : Nat} {source : String} {moment : Moment} {history : List Buffer.Change}

theorem Reaches.yields_foreign (reached : (first jumps source).Reaches history moment) :
    (Buffer.foreign jumps).Yields history (moment.goals.flatMap Goal.waiting ++ List.range jumps)
      moment.draft.code := by
  have begun : (Buffer.foreign jumps).Yields []
      ((first jumps source).goals.flatMap Goal.waiting ++ List.range jumps) (Buffer.foreign jumps) :=
    ⟨.nothing _, List.Perm.of_eq (Buffer.pending_foreign jumps)⟩
  exact reached.yields begun

theorem Reaches.accounts (reached : (first jumps source).Reaches history moment) :
    moment.Accounts jumps history := by
  obtain ⟨leads, waits⟩ := reached.yields_foreign
  have balance := leads.perm
  rw [Buffer.size_foreign, Buffer.pending_foreign] at balance
  have once : (Buffer.patchedIn history ++ moment.goals.flatMap Goal.waiting).Perm
      (Buffer.jumpsIn jumps history) := by
    have counted := (waits.append_left (Buffer.patchedIn history)).symm.trans balance
    rw [← List.append_assoc] at counted
    exact (List.perm_append_right_iff _).mp counted
  have untouched : ∀ index < jumps, index ∉ Buffer.patchedIn history := by
    intro index foreign patched
    have emitted := once.mem_iff.mp (List.mem_append_left _ patched)
    have own := Buffer.le_of_mem_jumpsIn emitted
    omega
  refine ⟨leads, Buffer.nodup_jumpsIn jumps history, once, fun index foreign => ?_⟩
  refine ⟨untouched index foreign, ?_, ?_⟩
  · exact waits.mem_iff.mpr (List.mem_append_right _ (List.mem_range.mpr foreign))
  · have there : index < (Buffer.foreign jumps).size := by rwa [Buffer.size_foreign]
    rw [leads.getElem?_eq there (untouched index foreign), Buffer.getElem?_foreign foreign]

theorem reaches_of_advance {goals remaining : List Goal} {token : Token} {draft advanced : Draft}
    (done : Goal.advance goals token draft = .ok (remaining, advanced)) (tokens : List Token) :
    ∃ history, Reaches ⟨goals, token :: tokens, draft⟩ history ⟨remaining, tokens, advanced⟩ := by
  induction goals generalizing draft with
  | nil => cases done
  | cons goal later ih =>
    unfold Goal.advance at done
    split at done
    next => cases done
    next passed met =>
      obtain ⟨history, further⟩ := ih done
      exact ⟨_, .next (.pass met) further⟩
    next goals taken met =>
      cases done
      exact ⟨_, .next (.take met) (.refl _)⟩

theorem reaches_of_advanceAll {goals remaining : List Goal} {tokens : List Token}
    {draft advanced : Draft} (done : Goal.advanceAll goals tokens draft = .ok (remaining, advanced)) :
    ∃ history, Reaches ⟨goals, tokens, draft⟩ history ⟨remaining, [], advanced⟩ := by
  induction tokens generalizing goals draft with
  | nil =>
    cases done
    exact ⟨[], .refl _⟩
  | cons token rest ih =>
    unfold Goal.advanceAll at done
    split at done
    next => cases done
    next step =>
      obtain ⟨history, reached⟩ := reaches_of_advance step rest
      obtain ⟨behind, further⟩ := ih done
      exact ⟨history ++ behind, reached.trans further⟩

end Moment

end Pascalet
