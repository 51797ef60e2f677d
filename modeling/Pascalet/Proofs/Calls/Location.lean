import Pascalet.Proofs.Calls.Region
import Pascalet.Proofs.Machine.Control

namespace Pascalet

def Buffer.SettingUp (code : Buffer) (index call : Nat) : Prop :=
  ∃ push, code.instructions[push]? = some ⟨.pushReturn, .integer (call + 1 : Nat)⟩ ∧
    push < index ∧ index ≤ call

namespace Program

/-- The addresses of calls, the latest first, each made in the region that the one before it has led to,
and the region where the latest has led to. -/
inductive Leads (program : Program) (region : Nat → Option Nat) : List Nat → Option Nat → Prop where
  | main : Leads program region [] none
  | call {rest : List Nat} {call entry : Nat} (before : Leads program region rest (region call))
    (fetched : program.code.instructions[call]? = some ⟨.call, .integer entry⟩) :
    Leads program region ((call + 1) :: rest) (some entry)

/-- Where control can be, and the return addresses of the activations there: in the region where the
calls have led to, or in the middle of a call, whose return address does not count yet. -/
inductive Located (program : Program) (region : Nat → Option Nat) (pc : Nat) :
    (returns active : List Nat) → Prop where
  | settled {active : List Nat} (leads : program.Leads region active (region pc))
    (inside : pc < program.code.size) (settled : program.code.Settled pc) :
    Located program region pc active active
  | calling {active : List Nat} {call : Nat} (leads : program.Leads region active (region pc))
    (settingUp : program.code.SettingUp pc call) :
    Located program region pc ((call + 1) :: active) active

variable {program : Program} {entries : List Nat} {region : Nat → Option Nat} {pc call : Nat}

theorem Leads.of_cons {address : Nat} {rest : List Nat} {here : Option Nat}
    (leads : program.Leads region (address :: rest) here) :
    ∃ call entry : Nat, address = call + 1 ∧ here = some entry ∧
      program.code.instructions[call]? = some ⟨.call, .integer entry⟩ ∧
      program.Leads region rest (region call) := by
  cases leads with
  | call before fetched => exact ⟨_, _, rfl, rfl, fetched, before⟩

theorem Leads.of_nil {here : Option Nat} (leads : program.Leads region [] here) : here = none := by
  cases leads
  rfl

namespace Regions

theorem sequence (regions : program.Regions entries region)
    (settingUp : program.code.SettingUp pc call) :
    ∃ push entry, program.code.CallSequence entries
      (fun other => other < program.code.size ∧ region other = region pc) push call entry ∧
      push < pc ∧ pc ≤ call := by
  obtain ⟨push, fetched, behind, before⟩ := settingUp
  cases regions.flow push _ fetched with
  | plain isPlain => cases isPlain
  | @pushReturn _ entry sequence =>
    have here := (sequence.places pc (Nat.le_of_lt behind) (Nat.le_succ_of_le before)).2
    refine ⟨push, entry, sequence.mono (fun _ known => known) ?_, behind, before⟩
    rintro other ⟨inside, same⟩
    exact ⟨inside, same.trans here.symm⟩

theorem fetched_of_settingUp (regions : program.Regions entries region)
    (settingUp : program.code.SettingUp pc call) :
    (pc < call ∧ ∃ argument, program.code.instructions[pc]? = some ⟨.pass, argument⟩) ∨
      pc = call ∧ ∃ entry ∈ entries, program.code.instructions[pc]? = some ⟨.call, .integer entry⟩ := by
  obtain ⟨push, entry, sequence, behind, before⟩ := regions.sequence settingUp
  rcases Nat.lt_or_eq_of_le before with earlier | rfl
  · exact .inl ⟨earlier, sequence.passes pc behind earlier⟩
  · exact .inr ⟨rfl, entry, sequence.known, sequence.calls⟩

theorem not_settled (regions : program.Regions entries region)
    (settingUp : program.code.SettingUp pc call) : ¬ program.code.Settled pc := by
  intro settled
  rcases regions.fetched_of_settingUp settingUp with ⟨_, _, fetched⟩ | ⟨_, _, _, fetched⟩
  · exact (settled _ fetched).1 rfl
  · exact (settled _ fetched).2 rfl

theorem settingUp_unique (regions : program.Regions entries region) {other : Nat}
    (settingUp : program.code.SettingUp pc call) (same : program.code.SettingUp pc other) :
    call = other := by
  obtain ⟨push, entry, sequence, behind, before⟩ := regions.sequence settingUp
  obtain ⟨otherPush, otherEntry, otherSequence, otherBehind, otherBefore⟩ := regions.sequence same
  rcases Nat.lt_trichotomy call other with less | equal | greater
  · obtain ⟨argument, fetched⟩ := otherSequence.passes call (by omega) less
    cases fetched.symm.trans sequence.calls
  · exact equal
  · obtain ⟨argument, fetched⟩ := sequence.passes other (by omega) greater
    cases fetched.symm.trans otherSequence.calls

theorem behind_call (regions : program.Regions entries region) {entry : Nat}
    (fetched : program.code.instructions[call]? = some ⟨.call, .integer entry⟩) :
    call + 1 < program.code.size ∧ region (call + 1) = region call ∧
      program.code.Settled (call + 1) := by
  cases regions.flow call _ fetched with
  | plain isPlain => cases isPlain
  | call sequence =>
    have ordered := sequence.ordered
    obtain ⟨inside, same⟩ := sequence.places (call + 1) (by omega) (Nat.le_refl _)
    exact ⟨inside, same, sequence.settled⟩

end Regions

inductive Shifts (program : Program) (entries : List Nat) (region : Nat → Option Nat)
    (frame : Machine.Frame) : Machine.Frame → Prop where
  | halt : Shifts program entries region frame frame
  | go {target : Nat} (settled : program.code.Settled frame.pc) (inside : target < program.code.size)
    (same : region target = region frame.pc) (settledThere : program.code.Settled target) :
    Shifts program entries region frame { frame with pc := target }
  | pushReturn {call : Nat} (settled : program.code.Settled frame.pc)
    (same : region (frame.pc + 1) = region frame.pc)
    (settingUp : program.code.SettingUp (frame.pc + 1) call) :
    Shifts program entries region frame
      { frame with pc := frame.pc + 1, returns := (call + 1) :: frame.returns }
  | pass {call : Nat} (settingUp : program.code.SettingUp frame.pc call)
    (same : region (frame.pc + 1) = region frame.pc)
    (settingUpNext : program.code.SettingUp (frame.pc + 1) call) :
    Shifts program entries region frame { frame with pc := frame.pc + 1 }
  | call {entry : Nat} (settingUp : program.code.SettingUp frame.pc frame.pc)
    (fetched : program.code.instructions[frame.pc]? = some ⟨.call, .integer entry⟩)
    (known : entry ∈ entries) : Shifts program entries region frame { frame with pc := entry }
  | ret {target : Nat} {rest : List Nat} (settled : program.code.Settled frame.pc)
    (fetched : program.code.instructions[frame.pc]? = some ⟨.ret, .absent⟩)
    (top : frame.returns = target :: rest) :
    Shifts program entries region frame { frame with pc := target, returns := rest }

section Transfer

variable {frame next : Machine.Frame} {active : List Nat}

theorem Regions.shifts (regions : program.Regions entries region)
    (sameCode : frame.code = program.code) (moved : Machine.Transfer frame next) :
    program.Shifts entries region frame next := by
  cases moved with
  | halt => exact .halt
  | next fetched goesOn =>
    rw [sameCode] at fetched
    cases regions.flow _ _ fetched with
    | plain isPlain next settled =>
      exact .go (Buffer.settled_of_fetched fetched (Buffer.not_call_of_isPlain isPlain)) next.1 next.2
        settled
    | jumpIfZero next settled =>
      exact .go (Buffer.settled_of_fetched fetched (by simp)) next.1 next.2 settled
    | pass sequence behind before =>
      have same := (sequence.places (frame.pc + 1) (by omega) (by omega)).2
      exact .pass ⟨_, sequence.pushes, behind, Nat.le_of_lt before⟩ same
        ⟨_, sequence.pushes, Nat.lt_succ_of_lt behind, before⟩
    | _ => cases goesOn
  | @jump opcode target fetched jumps =>
    rw [sameCode] at fetched
    cases regions.flow _ _ fetched with
    | jump there settled | jumpIfZero _ _ there settled =>
      exact .go (Buffer.settled_of_fetched fetched (by simp)) there.1 there.2 settled
    | call sequence =>
      exact .call ⟨_, sequence.pushes, sequence.ordered, Nat.le_refl _⟩ fetched sequence.known
    | plain isPlain =>
      cases opcode with
      | jump | jumpIfZero | call => cases isPlain
      | _ => cases jumps
    | _ => cases jumps
  | pushReturn fetched =>
    rw [sameCode] at fetched
    cases regions.flow _ _ fetched with
    | plain isPlain => cases isPlain
    | pushReturn sequence =>
      have ordered := sequence.ordered
      have same := (sequence.places (frame.pc + 1) (by omega) (by omega)).2
      exact .pushReturn (Buffer.settled_of_fetched fetched (by simp)) same
        ⟨_, fetched, Nat.lt_succ_self _, ordered⟩
  | ret fetched top =>
    rw [sameCode] at fetched
    cases regions.flow _ _ fetched with
    | plain isPlain => cases isPlain
    | ret => exact .ret (Buffer.settled_of_fetched fetched (by simp)) fetched top

/-- From a settled place control goes to another one of the region, begins to set up a call, or comes
back behind the latest call. -/
theorem Leads.transfer (regions : program.Regions entries region)
    (leads : program.Leads region frame.returns (region frame.pc))
    (inside : frame.pc < program.code.size) (settled : program.code.Settled frame.pc)
    (shifts : program.Shifts entries region frame next) :
    ∃ later, program.Located region next.pc next.returns later ∧ later <:+ frame.returns := by
  cases shifts with
  | halt => exact ⟨_, .settled leads inside settled, List.suffix_refl _⟩
  | go _ insideThere same settledThere =>
    exact ⟨_, .settled (same ▸ leads) insideThere settledThere, List.suffix_refl _⟩
  | pushReturn _ same settingUp => exact ⟨_, .calling (same ▸ leads) settingUp, List.suffix_refl _⟩
  | pass settingUp | call settingUp => exact absurd settled (regions.not_settled settingUp)
  | ret _ _ top =>
    rw [top] at leads ⊢
    obtain ⟨call, entry, rfl, _, called, before⟩ := leads.of_cons
    obtain ⟨insideBehind, same, settledBehind⟩ := regions.behind_call called
    exact ⟨_, .settled (same ▸ before) insideBehind settledBehind, List.suffix_cons _ _⟩

/-- What a step does to the activations: it ends some, or it is a call and starts one. -/
def Follows (frame : Machine.Frame) (active later : List Nat) : Prop :=
  later <:+ active ∨ later = (frame.pc + 1) :: active ∧ frame.returns = later

theorem transfer_of_settingUp (regions : program.Regions entries region)
    (leads : program.Leads region active (region frame.pc))
    (settingUp : program.code.SettingUp frame.pc call) (top : frame.returns = (call + 1) :: active)
    (shifts : program.Shifts entries region frame next) :
    ∃ later, program.Located region next.pc next.returns later ∧ Follows frame active later := by
  have notSettled := regions.not_settled settingUp
  cases shifts with
  | halt =>
    rw [top]
    exact ⟨active, .calling leads settingUp, .inl (List.suffix_refl _)⟩
  | go settled | pushReturn settled | ret settled => exact absurd settled notSettled
  | pass sameTime same settingUpNext =>
    obtain rfl := regions.settingUp_unique settingUp sameTime
    rw [top]
    exact ⟨active, .calling (same ▸ leads) settingUpNext, .inl (List.suffix_refl _)⟩
  | call sameTime fetched known =>
    obtain rfl := regions.settingUp_unique settingUp sameTime
    obtain ⟨inside, settled, here⟩ := regions.entered _ known
    refine ⟨frame.returns, .settled ?_ inside settled, .inr ⟨top, rfl⟩⟩
    rw [here, top]
    exact .call leads fetched

theorem Located.transfer (regions : program.Regions entries region)
    (located : program.Located region frame.pc frame.returns active)
    (shifts : program.Shifts entries region frame next) :
    ∃ later, program.Located region next.pc next.returns later ∧ Follows frame active later := by
  generalize addresses : frame.returns = returns at located
  cases located with
  | settled leads inside settled =>
    subst addresses
    obtain ⟨later, located, ends⟩ := leads.transfer regions inside settled shifts
    exact ⟨later, located, .inl ends⟩
  | calling leads settingUp =>
    exact transfer_of_settingUp regions leads settingUp addresses shifts

theorem Shifts.region_cases (regions : program.Regions entries region)
    (shifts : program.Shifts entries region frame next) :
    region next.pc = region frame.pc ∨
      (program.code.instructions[frame.pc]? = some ⟨.call, .integer next.pc⟩ ∧
        region next.pc = some next.pc) ∨
      program.code.instructions[frame.pc]? = some ⟨.ret, .absent⟩ := by
  cases shifts with
  | halt => exact .inl rfl
  | go _ _ same | pushReturn _ same | pass _ same => exact .inl same
  | call _ fetched known => exact .inr (.inl ⟨fetched, (regions.entered _ known).2.2⟩)
  | ret _ fetched => exact .inr (.inr fetched)

end Transfer

end Program

end Pascalet
