import Pascalet.Proofs.Backpatching.Goal
import Pascalet.Proofs.Backpatching.Moments
import Pascalet.Proofs.Execution.Correctness
import Pascalet.Proofs.Renaming.Program

namespace Pascalet

theorem Draft.behind_foreign (jumps : Nat) :
    Draft.Behind jumps {} { code := .foreign jumps } where
  symbols := rfl
  procedure := rfl
  code := by
    refine ⟨Buffer.size_foreign jumps, ?_, ?_⟩
    · induction jumps with
      | zero => rfl
      | succ jumps ih => exact ih
    · exact (Buffer.pending_foreign jumps).trans (List.append_nil _).symm

namespace Program

variable {source : String} {jumps : Nat}

theorem advanceAll_foreign (jumps : Nat) (source : String) :
    Alike (Goal.BehindAll jumps) (Goal.advanceAll Goal.program (tokenize source).tokens {})
      (Goal.advanceAll Goal.program (tokenize source).tokens { code := .foreign jumps }) :=
  Goal.advanceAll_behind (Draft.behind_foreign jumps) Goal.program (tokenize source).tokens

theorem compileBehind_eq (jumps : Nat) (source : String) :
    compileBehind jumps source = ofTokens (tokenize source) (.foreign jumps) := rfl

theorem located_advanceAll (jumps : Nat) (source : String) :
    Located (fun (goals, draft) =>
        draft.code.pending.Perm (goals.flatMap Goal.waiting ++ List.range jumps))
      (Goal.advanceAll Goal.program (tokenize source).tokens { code := .foreign jumps }) :=
  Goal.waits_advanceAll _ (List.Perm.of_eq (Buffer.pending_foreign jumps))

theorem compileBehind_ne_notPending (jumps : Nat) (source : String) (index : Int) :
    compileBehind jumps source ≠ .error (.jump (.notPending index)) := by
  have located := located_advanceAll jumps source
  intro failed
  rw [compileBehind_eq, ofTokens] at failed
  split at failed
  next error done =>
    cases failed
    rw [done] at located
    cases located
  next => split at failed <;> cases failed

theorem compileBehind_of_error {error : CompileError} (failed : compile source = .error error)
    (jumps : Nat) : compileBehind jumps source = .error error := by
  rw [compileBehind_eq, ofTokens]
  rcases (advanceAll_foreign jumps source).cases with
    ⟨reached, reachedToo, done, doneToo, _⟩ | ⟨cause, causeToo, done, doneToo, same⟩
  · cases failure : (tokenize source).failure with
    | some invalid =>
      simp only [compile, ofTokens, done, failure] at failed
      simp only [doneToo, failed]
    | none =>
      -- A complete text whose tokens come through is one that compiles.
      have built : Goal.outcome (tokenize source).tokens =
          .ok (reached.2.symbols, reached.2.code) := by
        rw [Goal.outcome, done]
        rfl
      obtain ⟨name, compiled⟩ := compile_of_outcome failure built
      rw [compiled] at failed
      cases failed
  · have located := located_advanceAll 0 source
    have stopped : Goal.advanceAll Goal.program (tokenize source).tokens
        { code := .foreign 0 } = .error cause := done
    rw [stopped] at located
    simp only [compile, ofTokens, done] at failed
    rw [doneToo, same located]
    exact failed

theorem exists_advanceAll_of_ok {program : Program} (compiled : compile source = .ok program)
    (jumps : Nat) :
    program.code.pending = [] ∧ (tokenize source).failure = none ∧ ∃ goals draft,
      Goal.advanceAll Goal.program (tokenize source).tokens { code := .foreign jumps } =
        .ok (goals, draft) ∧ draft.code.pending = List.range jumps := by
  rcases (advanceAll_foreign jumps source).cases with
    ⟨reached, reachedToo, done, doneToo, behind⟩ | ⟨cause, causeToo, done, doneToo, same⟩
  · simp only [compile, ofTokens, done] at compiled
    split at compiled
    next => cases compiled
    next failure nothing =>
      cases compiled
      refine ⟨nothing, failure, reachedToo.1, reachedToo.2, doneToo, ?_⟩
      rw [behind.2.code.pending, nothing, List.map_nil, List.append_nil]
    next => cases compiled
  · simp only [compile, ofTokens, done] at compiled
    cases compiled

theorem argument_ne_placeholder {program : Program} (compiled : compile source = .ok program) :
    ∀ instruction ∈ program.code.instructions,
      instruction.argument ≠ .integer Buffer.placeholder := by
  intro instruction found same
  obtain ⟨tree, spells⟩ := (exists_spells_of_compile compiled).2
  obtain ⟨core, context, _, _, executable⟩ := executable_of_compile compiled spells
  have sound := (executable context.cells (Nat.le_refl _)).sound instruction found
  unfold Instruction.Sound at sound
  rw [same] at sound
  split at sound
  · cases sound.1
  · obtain ⟨value, natural, _⟩ := sound
    cases natural
  · obtain ⟨text, isText, _⟩ := sound
    cases isText

/-- Backpatching is exact, whatever the text and however many jumps of others wait in front. At every
moment of compilation, each jump that the goals have emitted has been patched by them once or one goal
waits for it, and the jumps of others are untouched. No patch ever fails. A text that compiles leaves no
placeholder; with jumps of others in front it comes to the same end, where each of its own jumps has been
patched and exactly those of others are reported. A text that does not compile fails with the same
error. -/
theorem backpatching_is_exact (source : String) (jumps : Nat) :
    (∀ history moment, (Moment.first jumps source).Reaches history moment →
      moment.Accounts jumps history) ∧
    (∀ index, compileBehind jumps source ≠ .error (.jump (.notPending index))) ∧
    match compile source with
    | .error error => compileBehind jumps source = .error error
    | .ok program =>
      program.code.pending = [] ∧
      (∀ instruction ∈ program.code.instructions,
        instruction.argument ≠ .integer Buffer.placeholder) ∧
      (∃ history last, (Moment.first jumps source).Reaches history last ∧ last.tokens = [] ∧
        last.Accounts jumps history ∧
        (Buffer.patchedIn history).Perm (Buffer.jumpsIn jumps history)) ∧
      (0 < jumps →
        compileBehind jumps source = .error (.jump (.unpatched (List.range jumps)))) := by
  refine ⟨fun _ _ reached => reached.accounts, compileBehind_ne_notPending jumps source, ?_⟩
  cases result : compile source with
  | error error => exact compileBehind_of_error result jumps
  | ok program =>
    obtain ⟨settled, complete, goals, draft, done, pending⟩ := exists_advanceAll_of_ok result jumps
    refine ⟨settled, argument_ne_placeholder result, ?_, ?_⟩
    · obtain ⟨history, reached⟩ : ∃ history, (Moment.first jumps source).Reaches history
          ⟨goals, [], draft⟩ := Moment.reaches_of_advanceAll done
      have idle : goals.flatMap Goal.waiting = [] := by
        have counts : draft.code.pending.length =
            (goals.flatMap Goal.waiting).length + (List.range jumps).length :=
          reached.yields_foreign.waits.length_eq.trans List.length_append
        rw [pending] at counts
        exact List.length_eq_zero_iff.mp (Nat.right_eq_add.mp counts)
      refine ⟨history, _, reached, rfl, reached.accounts, ?_⟩
      have once := reached.accounts.once
      rwa [idle, List.append_nil] at once
    · intro some
      obtain ⟨more, rfl⟩ := Nat.exists_eq_succ_of_ne_zero (Nat.ne_of_gt some)
      rw [compileBehind_eq, ofTokens]
      simp only [done, complete, pending, List.range_succ_eq_map]

end Program

end Pascalet
