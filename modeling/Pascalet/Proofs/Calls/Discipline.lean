import Pascalet.Proofs.Calls.Location
import Pascalet.Proofs.Machine.Operations

namespace Pascalet

namespace Machine

def afterStep (machine : Machine) : Machine :=
  (outcome machine.step).1

/-- The machines that stepping leads to. -/
inductive Stepped (first : Machine) : Machine → Prop where
  | first : Stepped first first
  | next {machine : Machine} (reached : Stepped first machine) : Stepped first machine.afterStep

/-- The machines that stepping leads to while there are no fewer return addresses than so many. -/
inductive During (depth : Nat) (first : Machine) : Machine → Prop where
  | first (enough : depth ≤ first.returns.length) : During depth first first
  | next {machine : Machine} (reached : During depth first machine)
    (enough : depth ≤ machine.afterStep.returns.length) : During depth first machine.afterStep

theorem afterStep_cases {machine : Machine} (inside : machine.memory.Inside) :
    machine.afterStep.memory.Inside ∧
      (Transfer machine.frame machine.afterStep.frame ∨ machine.afterStep.frame = machine.frame) := by
  have ended := ends_step inside
  unfold afterStep
  cases result : machine.step with
  | ok value after =>
    rw [result] at ended
    exact ⟨ended.2, .inl ended.1⟩
  | error error after =>
    rw [result] at ended
    exact ⟨ended.2.1, .inr ended.1⟩

end Machine

namespace Program

open Machine (Stepped During)

variable {program : Program} {entries : List Nat} {region : Nat → Option Nat}

/-- A machine whose activations have all been started by calls, and not been ended since. -/
structure Tracked (program : Program) (region : Nat → Option Nat) (first machine : Machine)
    (active : List Nat) : Prop where
  reached : Stepped first machine
  sameCode : machine.code = program.code
  inside : machine.memory.Inside
  located : program.Located region machine.pc machine.returns active
  started : ∀ call rest, (call + 1) :: rest <:+ active → ∃ caller, Stepped first caller ∧
    caller.pc = call ∧ caller.returns = (call + 1) :: rest ∧
    During (rest.length + 1) caller.afterStep machine

theorem Located.active_suffix {pc : Nat} {returns active : List Nat}
    (located : program.Located region pc returns active) : active <:+ returns := by
  cases located with
  | settled => exact List.suffix_refl _
  | calling => exact List.suffix_cons _ _

theorem Tracked.next (regions : program.Regions entries region) {first machine : Machine}
    {active : List Nat} (tracked : program.Tracked region first machine active) :
    ∃ later, program.Tracked region first machine.afterStep later := by
  obtain ⟨reached, sameCode, inside, located, started⟩ := tracked
  obtain ⟨insideNext, moved⟩ := Machine.afterStep_cases inside
  have sameNext : machine.afterStep.code = program.code := by
    rcases moved with moved | same
    · exact moved.keeps.1.trans sameCode
    · exact (congrArg Machine.Frame.code same).trans sameCode
  obtain ⟨later, locatedNext, follows⟩ : ∃ later,
      program.Located region machine.afterStep.pc machine.afterStep.returns later ∧
        Follows machine.frame active later := by
    rcases moved with moved | same
    · exact Located.transfer regions located (regions.shifts sameCode moved)
    · have samePc : machine.afterStep.pc = machine.pc := congrArg Machine.Frame.pc same
      have sameReturns : machine.afterStep.returns = machine.returns :=
        congrArg Machine.Frame.returns same
      rw [samePc, sameReturns]
      exact ⟨active, located, .inl (List.suffix_refl _)⟩
  refine ⟨later, reached.next, sameNext, insideNext, locatedNext, ?_⟩
  intro call rest suffix
  have enough := (suffix.trans locatedNext.active_suffix).length_le
  rcases follows with ended | ⟨rfl, called⟩
  · obtain ⟨caller, callerReached, atCall, top, during⟩ := started call rest (suffix.trans ended)
    exact ⟨caller, callerReached, atCall, top, during.next enough⟩
  · rcases List.suffix_cons_iff.mp suffix with whole | older
    · cases whole
      exact ⟨machine, reached, rfl, called, .first enough⟩
    · obtain ⟨caller, callerReached, atCall, top, during⟩ := started call rest older
      exact ⟨caller, callerReached, atCall, top, during.next enough⟩

theorem tracked_of_stepped (regions : program.Regions entries region) {first machine : Machine}
    {memorySize : Int} {input : Input}
    (created : Machine.create program.code memorySize input = .ok first)
    (reached : Stepped first machine) : ∃ active, program.Tracked region first machine active := by
  induction reached with
  | first =>
    obtain ⟨_, _, rfl⟩ := Machine.create_eq_ok_iff.mp created
    refine ⟨[], .first, rfl, Memory.inside_blank _, .settled ?_ regions.nonempty regions.settled,
      by simp⟩
    rw [regions.main]
    exact .main
  | next _ ih =>
    obtain ⟨active, tracked⟩ := ih
    exact tracked.next regions

def SameRegion (program : Program) (index other : Nat) : Prop :=
  program.InMain index ∧ program.InMain other ∨
    ∃ entry, program.InExtent entry index ∧ program.InExtent entry other

/-- The return addresses, the oldest first, are those of calls. The oldest call was made in the main
region, and each other one in the procedure that the one before it has called. Control is in the
procedure of the latest call, or sets up that call in the region of the call itself. -/
structure Disciplined (program : Program) (pc : Nat) (addresses : List Nat) : Prop where
  calls : ∀ address ∈ addresses, ∃ call entry : Nat, address = call + 1 ∧
    program.code.instructions[call]? = some ⟨.call, .integer entry⟩
  oldest : ∀ call, addresses[0]? = some (call + 1) → program.InMain call
  nested : ∀ position call entry inner : Nat, addresses[position]? = some (call + 1) →
    program.code.instructions[call]? = some ⟨.call, .integer entry⟩ →
    addresses[position + 1]? = some (inner + 1) → program.InExtent entry inner
  settingUp : ∀ call, program.code.SettingUp pc call →
    addresses.getLast? = some (call + 1) ∧ program.SameRegion pc call
  inside : (∀ call, ¬ program.code.SettingUp pc call) →
    (addresses = [] → program.InMain pc) ∧
    ∀ call entry : Nat, addresses.getLast? = some (call + 1) →
      program.code.instructions[call]? = some ⟨.call, .integer entry⟩ → program.InExtent entry pc

theorem Regions.inMain (regions : program.Regions entries region) {index : Nat}
    (inside : index < program.code.size) (main : region index = none) : program.InMain index := by
  refine ⟨inside, ?_⟩
  intro entry extent
  rw [(regions.inExtent_iff entry index).mp extent] at main
  cases main

theorem Leads.calls {returns : List Nat} {here : Option Nat}
    (leads : program.Leads region returns here) :
    ∀ address ∈ returns.reverse, ∃ call entry : Nat, address = call + 1 ∧
      program.code.instructions[call]? = some ⟨.call, .integer entry⟩ := by
  induction leads with
  | main => simp
  | call before fetched ih =>
    intro address member
    rw [List.reverse_cons] at member
    rcases List.mem_append.mp member with old | new
    · exact ih address old
    · exact ⟨_, _, List.mem_singleton.mp new, fetched⟩

theorem Leads.oldest (regions : program.Regions entries region) {returns : List Nat}
    {here : Option Nat} (leads : program.Leads region returns here) :
    ∀ call, returns.reverse[0]? = some (call + 1) → program.InMain call := by
  induction leads with
  | main => simp
  | @call rest made entry before fetched ih =>
    intro call first
    cases rest with
    | nil =>
      obtain rfl : made = call := by simpa using first
      have inside := (Array.getElem?_eq_some_iff.mp fetched).1
      exact regions.inMain inside before.of_nil
    | cons address older =>
      apply ih call
      rw [List.reverse_cons, List.getElem?_append_left (by simp)] at first
      exact first

theorem Leads.nested (regions : program.Regions entries region) {returns : List Nat}
    {here : Option Nat} (leads : program.Leads region returns here) :
    ∀ position call entry inner : Nat, returns.reverse[position]? = some (call + 1) →
      program.code.instructions[call]? = some ⟨.call, .integer entry⟩ →
      returns.reverse[position + 1]? = some (inner + 1) → program.InExtent entry inner := by
  induction leads with
  | main => simp
  | @call rest made madeEntry before fetched ih =>
    intro position call entry inner outer outerFetched next
    rw [List.reverse_cons] at outer next
    rcases Nat.lt_trichotomy (position + 1) rest.reverse.length with early | latest | beyond
    · rw [List.getElem?_append_left (by omega)] at outer next
      exact ih position call entry inner outer outerFetched next
    · rw [List.getElem?_append_left (by omega)] at outer
      rw [latest, List.getElem?_concat_length] at next
      obtain rfl : made = inner := by simpa using next
      cases rest with
      | nil => cases outer
      | cons address older =>
        rw [List.reverse_cons, List.length_append, List.length_singleton] at latest
        rw [List.reverse_cons, Nat.succ.inj latest, List.getElem?_concat_length] at outer
        obtain ⟨caller, callerEntry, isAddress, region_eq, callerFetched, _⟩ := before.of_cons
        obtain rfl : caller = call := by
          have same := Option.some.inj outer
          omega
        cases outerFetched.symm.trans callerFetched
        exact (regions.inExtent_iff _ _).mpr region_eq
    · rw [List.getElem?_append_right (Nat.le_of_lt beyond)] at next
      rw [List.getElem?_eq_none (by rw [List.length_singleton]; omega)] at next
      cases next

theorem Regions.sameRegion (regions : program.Regions entries region) {index other : Nat}
    (inside : index < program.code.size) (otherInside : other < program.code.size)
    (same : region index = region other) : program.SameRegion index other := by
  cases here : region index with
  | none => exact .inl ⟨regions.inMain inside here, regions.inMain otherInside (same ▸ here)⟩
  | some entry =>
    exact .inr ⟨entry, (regions.inExtent_iff _ _).mpr here,
      (regions.inExtent_iff _ _).mpr (same ▸ here)⟩

theorem Located.disciplined (regions : program.Regions entries region) {pc : Nat}
    {returns active : List Nat} (located : program.Located region pc returns active) :
    program.Disciplined pc returns.reverse := by
  cases located with
  | settled leads inside settled =>
    refine ⟨leads.calls, leads.oldest regions, leads.nested regions, ?_, fun _ => ⟨?_, ?_⟩⟩
    · intro call settingUp
      exact absurd settled (regions.not_settled settingUp)
    · intro empty
      rw [List.reverse_eq_nil_iff.mp empty] at leads
      exact regions.inMain inside leads.of_nil
    · intro call entry latest fetched
      rw [List.getLast?_reverse] at latest
      obtain ⟨older, rfl⟩ := List.head?_eq_some_iff.mp latest
      obtain ⟨made, madeEntry, isAddress, here, madeFetched, _⟩ := leads.of_cons
      obtain rfl := Nat.succ.inj isAddress
      cases fetched.symm.trans madeFetched
      exact (regions.inExtent_iff _ _).mpr here
  | @calling _ call leads settingUp =>
    obtain ⟨push, entry, sequence, behind, before⟩ := regions.sequence settingUp
    obtain ⟨insideCall, sameRegion⟩ := sequence.places call
      (Nat.le_of_lt sequence.ordered) (Nat.le_succ _)
    have insidePc := (sequence.places pc (Nat.le_of_lt behind) (Nat.le_succ_of_le before)).1
    have leads : program.Leads region ((call + 1) :: active) (some entry) :=
      .call (sameRegion ▸ leads) sequence.calls
    refine ⟨leads.calls, leads.oldest regions, leads.nested regions, ?_, fun none => ?_⟩
    · intro other sameTime
      obtain rfl := regions.settingUp_unique settingUp sameTime
      exact ⟨by simp, regions.sameRegion insidePc insideCall sameRegion.symm⟩
    · exact absurd settingUp (none call)

/-- The next step goes from a procedure back behind a call of it that was made on the way. Since the call
there have never been fewer return addresses, and now they are the same again: it is the call that has
started the activation. -/
def ReturnsToCaller (program : Program) (first machine : Machine) : Prop :=
  ∃ (caller next : Machine) (entry : Nat), Stepped first caller ∧
    program.code.instructions[caller.pc]? = some ⟨.call, .integer entry⟩ ∧
    program.InExtent entry machine.pc ∧ caller.returns = machine.returns ∧
    During machine.returns.length caller.afterStep machine ∧
    machine.step = .ok () next ∧ next.pc = caller.pc + 1 ∧ program.SameRegion caller.pc next.pc

theorem Tracked.returnsToCaller (regions : program.Regions entries region) {first machine : Machine}
    {active : List Nat} (tracked : program.Tracked region first machine active)
    (fetched : program.code.instructions[machine.pc]? = some ⟨.ret, .absent⟩) :
    program.ReturnsToCaller first machine := by
  unfold ReturnsToCaller
  obtain ⟨_, sameCode, _, located, started⟩ := tracked
  generalize top : machine.returns = returns at located ⊢
  cases located with
  | settled leads =>
    cases active with
    | nil =>
      cases regions.flow _ _ fetched with
      | plain isPlain => cases isPlain
      | ret inside => exact absurd leads.of_nil inside
    | cons address rest =>
      obtain ⟨call, entry, rfl, here, called, _⟩ := leads.of_cons
      obtain ⟨caller, reached, rfl, sameReturns, during⟩ := started call rest (List.suffix_refl _)
      have stepped : machine.step = .ok () { machine with
          steps := machine.steps + 1, pc := caller.pc + 1, returns := rest } := by
        simp [Machine.step, sameCode, fetched, Machine.perform, Machine.follow, top]
      have inside := (Array.getElem?_eq_some_iff.mp called).1
      obtain ⟨insideBehind, same, _⟩ := regions.behind_call called
      exact ⟨caller, _, entry, reached, called, (regions.inExtent_iff _ _).mpr here, sameReturns,
        during, stepped, rfl, regions.sameRegion inside insideBehind same.symm⟩
  | calling _ settingUp =>
    rcases regions.fetched_of_settingUp settingUp with ⟨_, _, pass⟩ | ⟨_, _, _, call⟩
    · cases fetched.symm.trans pass
    · cases fetched.symm.trans call

/-- Wherever stepping leads on compiled code: the return addresses are those of nested calls, and control
is where the latest of them has led to or sets up the next one. A procedure is entered by a call, at its
entry, or by a return; and a return leads behind the call that has started the activation. -/
theorem calls_are_disciplined {source : String} {program : Program}
    (compiled : compile source = .ok program) {memorySize : Int} {input : Input}
    {first machine : Machine} (created : Machine.create program.code memorySize input = .ok first)
    (reached : Stepped first machine) :
    program.Disciplined machine.pc machine.returns.reverse ∧
    (∀ entry : Nat, program.InExtent entry machine.afterStep.pc →
      ¬ program.InExtent entry machine.pc →
      (program.code.instructions[machine.pc]? = some ⟨.call, .integer entry⟩ ∧
        machine.afterStep.pc = entry) ∨
      program.code.instructions[machine.pc]? = some ⟨.ret, .absent⟩) ∧
    (program.code.instructions[machine.pc]? = some ⟨.ret, .absent⟩ →
      program.ReturnsToCaller first machine) := by
  obtain ⟨entries, region, regions⟩ := exists_regions compiled
  obtain ⟨active, tracked⟩ := tracked_of_stepped regions created reached
  refine ⟨tracked.located.disciplined regions, ?_, tracked.returnsToCaller regions⟩
  intro entry inside outside
  rw [regions.inExtent_iff] at inside outside
  rcases (Machine.afterStep_cases tracked.inside).2 with moved | same
  · have shifts := regions.shifts tracked.sameCode moved
    rcases shifts.region_cases regions with stays | ⟨called, entered⟩ | returned
    · exact absurd (stays.symm.trans inside) outside
    · obtain rfl : machine.afterStep.pc = entry := Option.some.inj (entered.symm.trans inside)
      exact .inl ⟨called, rfl⟩
    · exact .inr returned
  · have samePc : machine.afterStep.pc = machine.pc := congrArg Machine.Frame.pc same
    rw [samePc] at inside
    exact absurd inside outside

theorem calls_are_disciplined_inner_return :
    ∃ (program : Program) (first machine : Machine),
      compile "program p; procedure q; begin end; procedure r; begin q end; begin r end." =
        .ok program ∧
      Machine.create program.code 0 (.ofText "") = .ok first ∧ Stepped first machine ∧
      program.code.instructions[3]? = some ⟨.ret, .absent⟩ ∧ machine.pc = 3 ∧
      program.Disciplined 3 [11, 7] ∧ program.ReturnsToCaller first machine := by
  have checked : (compile
      "program p; procedure q; begin end; procedure r; begin q end; begin r end.").toOption.any
        (fun program => (Machine.create program.code 0 (.ofText "")).toOption.any fun first =>
          let machine :=
            first.afterStep.afterStep.afterStep.afterStep.afterStep.afterStep.afterStep
          decide (program.code.instructions[3]? = some ⟨.ret, .absent⟩ ∧ machine.pc = 3 ∧
            machine.returns = [7, 11])) = true := by
    decide +kernel
  obtain ⟨program, compiled, checked⟩ := exists_of_any checked
  obtain ⟨first, created, facts⟩ := exists_of_any checked
  obtain ⟨fetched, here, returns⟩ := of_decide_eq_true facts
  have reached : Stepped first
      first.afterStep.afterStep.afterStep.afterStep.afterStep.afterStep.afterStep :=
    .next (.next (.next (.next (.next (.next (.next .first))))))
  obtain ⟨disciplined, _, returned⟩ := calls_are_disciplined compiled created reached
  rw [here, returns] at disciplined
  rw [here] at returned
  exact ⟨program, first, _, compiled, created, reached, fetched, here, disciplined, returned fetched⟩

end Program

end Pascalet
