import Pascalet.Proofs.Layout.Buffer

namespace Pascalet.Buffer

inductive Change where
  | emit (opcode : Opcode) (argument : Argument)
  | emitJump (opcode : Opcode)
  | patch (index target : Int)
  | allocate

def Change.apply (buffer : Buffer) : Change → Except JumpFault Buffer
  | emit opcode argument => .ok (buffer.emit opcode argument)
  | emitJump opcode => .ok (buffer.emitJump opcode)
  | patch index target => buffer.patch index target
  | allocate => .ok buffer.allocate

def Change.patched : Change → List Nat
  | patch index _ => [index.toNat]
  | _ => []

def Change.jump (size : Nat) : Change → List Nat
  | emitJump _ => [size]
  | _ => []

def Change.added : Change → Nat
  | emit _ _ | emitJump _ => 1
  | _ => 0

/-- A history: changes that come to a buffer one after the other, and all succeed. -/
inductive Leads : Buffer → List Change → Buffer → Prop where
  | nothing (buffer : Buffer) : Leads buffer [] buffer
  | change {start next last : Buffer} {change : Change} {rest : List Change}
    (applied : change.apply start = .ok next) (behind : Leads next rest last) :
    Leads start (change :: rest) last

def patchedIn (history : List Change) : List Nat :=
  history.flatMap Change.patched

/-- The jumps that a history emits, by their indices, into a buffer of some size. -/
def jumpsIn : (size : Nat) → List Change → List Nat
  | _, [] => []
  | size, change :: rest => change.jump size ++ jumpsIn (size + change.added) rest

variable {start middle last : Buffer} {history later : List Change}

theorem Leads.trans (first : start.Leads history middle) (second : middle.Leads later last) :
    start.Leads (history ++ later) last := by
  induction first with
  | nothing buffer => exact second
  | change applied _ ih => exact .change applied (ih second)

theorem Leads.single {change : Change} (applied : change.apply start = .ok last) :
    start.Leads [change] last :=
  .change applied (.nothing last)

theorem of_patch {index target : Int} (done : start.patch index target = .ok last) :
    index.toNat ∈ start.pending ∧ last = { start with
      instructions :=
        start.instructions.modify index.toNat fun jump => { jump with argument := .integer target }
      pending := start.pending.erase index.toNat } := by
  unfold patch at done
  split at done
  next awaited => exact ⟨awaited.2, (Except.ok.inj done).symm⟩
  next => cases done

theorem size_apply {change : Change} {next : Buffer} (applied : change.apply start = .ok next) :
    next.size = start.size + change.added := by
  cases change with
  | emit opcode argument | emitJump opcode =>
    cases applied
    exact Array.size_push _
  | allocate =>
    cases applied
    rfl
  | patch index target => exact size_of_patch applied

def addedIn : List Change → Nat
  | [] => 0
  | change :: rest => change.added + addedIn rest

theorem addedIn_append (history later : List Change) :
    addedIn (history ++ later) = addedIn history + addedIn later := by
  induction history with
  | nil => exact (Nat.zero_add _).symm
  | cons change rest ih => rw [List.cons_append, addedIn, addedIn, ih, Nat.add_assoc]

theorem addedIn_emits {α : Type} (opcode : Opcode) (argument : α → Argument) (items : List α) :
    addedIn (items.map fun item => .emit opcode (argument item)) = items.length := by
  induction items with
  | nil => rfl
  | cons item rest ih =>
    rw [List.map_cons, addedIn, ih, List.length_cons]
    exact Nat.add_comm 1 rest.length

theorem Leads.size (leads : start.Leads history last) : last.size = start.size + addedIn history := by
  induction leads with
  | nothing buffer => rfl
  | change applied _ ih =>
    rw [ih, size_apply applied, addedIn, Nat.add_assoc]

/-- One change keeps the account: what it patches did wait, and what it emits waits now. -/
theorem perm_apply {change : Change} {next : Buffer} (applied : change.apply start = .ok next) :
    (change.patched ++ next.pending).Perm (change.jump start.size ++ start.pending) := by
  cases change with
  | emit opcode argument | allocate =>
    cases applied
    exact .refl _
  | emitJump opcode =>
    cases applied
    exact List.perm_append_singleton start.size start.pending
  | patch index target =>
    obtain ⟨awaited, rfl⟩ := of_patch applied
    exact (List.perm_cons_erase awaited).symm

theorem Leads.perm (leads : start.Leads history last) :
    (patchedIn history ++ last.pending).Perm (jumpsIn start.size history ++ start.pending) := by
  induction leads with
  | nothing buffer => exact .refl _
  | @change start next last change rest applied _ ih =>
    rw [size_apply applied] at ih
    have here := perm_apply applied
    rw [patchedIn, List.flatMap_cons, jumpsIn, List.append_assoc, List.append_assoc]
    let later := jumpsIn (start.size + change.added) rest
    -- What is patched later goes to the end, where the changes behind this one account for it.
    calc change.patched ++ (patchedIn rest ++ last.pending)
      _ |>.Perm (change.patched ++ (later ++ next.pending)) := ih.append_left change.patched
      _ |>.Perm (later ++ (change.patched ++ next.pending)) := List.perm_append_comm_assoc ..
      _ |>.Perm (later ++ (change.jump start.size ++ start.pending)) := here.append_left later
      _ |>.Perm (change.jump start.size ++ (later ++ start.pending)) := List.perm_append_comm_assoc ..

theorem le_of_mem_jumpsIn {size index : Nat} (emitted : index ∈ jumpsIn size history) :
    size ≤ index := by
  induction history generalizing size with
  | nil => cases emitted
  | cons change rest ih =>
    rcases List.mem_append.mp emitted with here | behind
    · cases change with
      | emitJump opcode => exact Nat.le_of_eq (List.mem_singleton.mp here).symm
      | _ => cases here
    · have above := ih behind
      omega

theorem nodup_jumpsIn (size : Nat) (history : List Change) : (jumpsIn size history).Nodup := by
  induction history generalizing size with
  | nil => exact .nil
  | cons change rest ih =>
    cases change with
    | emitJump opcode =>
      refine List.nodup_cons.mpr ⟨?_, ih (size + 1)⟩
      intro again
      exact Nat.not_succ_le_self size (le_of_mem_jumpsIn again)
    | emit opcode argument => exact ih (size + 1)
    | patch index target | allocate => exact ih size

theorem getElem?_apply {change : Change} {next : Buffer} {index : Nat}
    (applied : change.apply start = .ok next) (there : index < start.size)
    (kept : index ∉ change.patched) : next.instructions[index]? = start.instructions[index]? := by
  cases change with
  | emit opcode argument | emitJump opcode =>
    cases applied
    exact (Array.getElem?_push_lt there).trans (Array.getElem?_eq_getElem there).symm
  | allocate =>
    cases applied
    rfl
  | patch patched target =>
    obtain ⟨_, rfl⟩ := of_patch applied
    have other : patched.toNat ≠ index := fun same => kept (List.mem_singleton.mpr same.symm)
    rw [Array.getElem?_modify, if_neg other]

theorem Leads.getElem?_eq {index : Nat} (leads : start.Leads history last) (there : index < start.size)
    (kept : index ∉ patchedIn history) : last.instructions[index]? = start.instructions[index]? := by
  induction leads with
  | nothing buffer => rfl
  | @change start next last change rest applied _ ih =>
    rw [patchedIn, List.flatMap_cons, List.mem_append, not_or] at kept
    have still : index < next.size := by
      rw [size_apply applied]
      omega
    rw [ih still kept.2, getElem?_apply applied there kept.1]

end Pascalet.Buffer
