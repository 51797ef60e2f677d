import Pascalet.Proofs.Backpatching.History

namespace Pascalet.Buffer

inductive Answer where
  | placed (index : Nat)
  | allocated (address : Int)
  | patched
  | refused (fault : JumpFault)

namespace Change

def answer (buffer : Buffer) : Change → Answer
  | emit _ _ | emitJump _ => .placed buffer.nextIndex
  | allocate => .allocated buffer.nextAddress
  | patch index target =>
    match buffer.patch index target with
    | .ok _ => .patched
    | .error fault => .refused fault

def opcode? : Change → Option Opcode
  | emit opcode _ | emitJump opcode => some opcode
  | _ => none

def isAllocate : Change → Bool
  | allocate => true
  | _ => false

end Change

/-- The buffer behind a request. One that is refused leaves it as it is. -/
def request (buffer : Buffer) (change : Change) : Buffer :=
  match change.apply buffer with
  | .ok changed => changed
  | .error _ => buffer

def requestAll (buffer : Buffer) (changes : List Change) : Buffer :=
  changes.foldl request buffer

def log : Buffer → List Change → List (Change × Answer)
  | _, [] => []
  | buffer, change :: rest => (change, change.answer buffer) :: log (buffer.request change) rest

variable {buffer next : Buffer} {jumps patches : List Nat}

theorem request_of_ok {change : Change} (applied : change.apply buffer = .ok next) :
    buffer.request change = next := by
  rw [request, applied]

theorem request_of_error {change : Change} {fault : JumpFault}
    (refused : change.apply buffer = .error fault) : buffer.request change = buffer := by
  rw [request, refused]

theorem request_patch_of_ok {index target : Int} (done : buffer.patch index target = .ok next) :
    buffer.request (.patch index target) = next :=
  request_of_ok done

theorem request_patch_of_error {index target : Int} {fault : JumpFault}
    (failed : buffer.patch index target = .error fault) :
    buffer.request (.patch index target) = buffer :=
  request_of_error failed

theorem request_of_refused {change : Change} {fault : JumpFault}
    (refused : change.answer buffer = .refused fault) : buffer.request change = buffer := by
  cases change with
  | patch index target =>
    cases done : buffer.patch index target with
    | ok next =>
      rw [Change.answer, done] at refused
      cases refused
    | error fault => exact request_of_error done
  | _ => cases refused

theorem filterMap_log_cons {α : Type} (part? : Change × Answer → Option α) (change : Change)
    (rest : List Change) : (buffer.log (change :: rest)).filterMap part? =
      (part? (change, change.answer buffer)).toList ++
        ((buffer.request change).log rest).filterMap part? := by
  rw [log, List.filterMap_cons]
  cases part? (change, change.answer buffer) <;> rfl

namespace Answer

def jump? : Change × Answer → Option Nat
  | (.emitJump _, .placed index) => some index
  | _ => none

def patch? : Change × Answer → Option Nat
  | (.patch index _, .patched) => some index.toNat
  | _ => none

def cell? : Change × Answer → Option Int
  | (.allocate, .allocated address) => some address
  | _ => none

end Answer

/-- The jumps that were emitted and those that were patched account for the jumps that wait. -/
structure Account (buffer : Buffer) (jumps patches : List Nat) : Prop where
  pending : buffer.pending = jumps.filter (· ∉ patches)
  ascending : jumps.Pairwise (· < ·)
  inside : ∀ index ∈ jumps, index < buffer.size
  once : patches.Nodup
  emitted : ∀ index ∈ patches, index ∈ jumps
  held : ∀ index ∈ buffer.pending, ∃ opcode,
    buffer.instructions[index]? = some ⟨opcode, .integer placeholder⟩

namespace Account

theorem sorted (account : buffer.Account jumps patches) : buffer.pending.Pairwise (· < ·) := by
  rw [account.pending]
  exact account.ascending.filter _

theorem pendingInside (account : buffer.Account jumps patches) : buffer.PendingInside := by
  intro index waits
  rw [account.pending] at waits
  exact account.inside index (List.mem_filter.mp waits).1

theorem emit (account : buffer.Account jumps patches) (opcode : Opcode) (argument : Argument) :
    (buffer.emit opcode argument).Account jumps patches where
  pending := account.pending
  ascending := account.ascending
  inside index emitted := by
    have earlier := account.inside index emitted
    rw [emit_eq_extend, size_extend]
    exact Nat.lt_succ_of_lt earlier
  once := account.once
  emitted := account.emitted
  held index waits := by
    have applied : (Change.emit opcode argument).apply buffer = .ok (buffer.emit opcode argument) := rfl
    rw [getElem?_apply applied (account.pendingInside index waits) List.not_mem_nil]
    exact account.held index waits

theorem emitJump (account : buffer.Account jumps patches) (opcode : Opcode) :
    (buffer.emitJump opcode).Account (jumps ++ [buffer.nextIndex]) patches where
  pending := by
    have fresh : buffer.nextIndex ∉ patches := by
      intro early
      exact Nat.lt_irrefl _ (account.inside _ (account.emitted _ early))
    rw [emitJump_eq_extend, pending_extend, account.pending, List.filter_append]
    simp [fresh]
  ascending := by
    rw [List.pairwise_append]
    refine ⟨account.ascending, List.pairwise_singleton _ _, ?_⟩
    intro earlier emitted last member
    rw [List.mem_singleton.mp member]
    exact account.inside earlier emitted
  inside index emitted := by
    rw [emitJump_eq_extend, size_extend]
    rcases List.mem_append.mp emitted with earlier | last
    · exact Nat.lt_succ_of_lt (account.inside index earlier)
    · rw [List.mem_singleton.mp last]
      exact Nat.lt_succ_self _
  once := account.once
  emitted index member := List.mem_append_left _ (account.emitted index member)
  held index waits := by
    have applied : (Change.emitJump opcode).apply buffer = .ok (buffer.emitJump opcode) := rfl
    rw [emitJump_eq_extend, pending_extend] at waits
    rcases List.mem_append.mp waits with earlier | last
    · rw [getElem?_apply applied (account.pendingInside index earlier) List.not_mem_nil]
      exact account.held index earlier
    · rw [List.mem_singleton.mp last]
      exact ⟨opcode, Array.getElem?_push_size⟩

theorem patch {index target : Int} (account : buffer.Account jumps patches)
    (done : buffer.patch index target = .ok next) :
    next.Account jumps (patches ++ [index.toNat]) := by
  obtain ⟨awaited, split⟩ := of_patch done
  have nodup : buffer.pending.Nodup := account.sorted.imp Nat.ne_of_lt
  have left : next.pending = buffer.pending.filter (· ≠ index.toNat) := by
    rw [split]
    refine (nodup.erase_eq_filter _).trans (List.filter_congr ?_)
    intro other _
    rw [Bool.eq_iff_iff, bne_iff_ne, decide_eq_true_eq]
  have known := awaited
  rw [account.pending, List.mem_filter, decide_eq_true_eq] at known
  refine ⟨?_, account.ascending, ?_, ?_, ?_, ?_⟩
  · rw [left, account.pending, List.filter_filter]
    congr 1
    funext other
    simp [and_comm]
  · intro other emitted
    rw [size_of_patch done]
    exact account.inside other emitted
  · rw [List.nodup_append]
    refine ⟨account.once, List.pairwise_singleton _ _, ?_⟩
    intro other early last member
    rw [List.mem_singleton.mp member]
    rintro rfl
    exact known.2 early
  · intro other member
    rcases List.mem_append.mp member with early | last
    · exact account.emitted other early
    · rw [List.mem_singleton.mp last]
      exact known.1
  · intro other waits
    rw [left, List.mem_filter, decide_eq_true_eq] at waits
    have applied : (Change.patch index target).apply buffer = .ok next := done
    rw [getElem?_apply applied (account.pendingInside other waits.1)
      (by simpa [Change.patched] using waits.2)]
    exact account.held other waits.1

theorem request (account : buffer.Account jumps patches) (change : Change) :
    (buffer.request change).Account (jumps ++ (Answer.jump? (change, change.answer buffer)).toList)
      (patches ++ (Answer.patch? (change, change.answer buffer)).toList) := by
  cases change with
  | emit opcode argument =>
    rw [request_of_ok rfl]
    simpa [Answer.jump?, Answer.patch?] using account.emit opcode argument
  | emitJump opcode =>
    rw [request_of_ok rfl]
    simpa [Answer.jump?, Answer.patch?, Change.answer] using account.emitJump opcode
  | allocate =>
    obtain ⟨pending, ascending, inside, once, emitted, held⟩ := account
    rw [request_of_ok rfl]
    simpa [Answer.jump?, Answer.patch?] using ⟨pending, ascending, inside, once, emitted, held⟩
  | patch index target =>
    cases done : buffer.patch index target with
    | ok next =>
      rw [request_patch_of_ok done]
      simpa [Answer.jump?, Answer.patch?, Change.answer, done] using account.patch done
    | error fault =>
      rw [request_patch_of_error done]
      simpa [Answer.jump?, Answer.patch?, Change.answer, done] using account

theorem requestAll (changes : List Change) {buffer : Buffer} {jumps patches : List Nat}
    (account : buffer.Account jumps patches) :
    (buffer.requestAll changes).Account
      (jumps ++ (buffer.log changes).filterMap Answer.jump?)
      (patches ++ (buffer.log changes).filterMap Answer.patch?) := by
  induction changes generalizing buffer jumps patches with
  | nil => simpa [Buffer.requestAll, log] using account
  | cons change rest ih =>
    rw [filterMap_log_cons, filterMap_log_cons, ← List.append_assoc, ← List.append_assoc]
    exact ih (account.request change)

end Account

theorem account_ofInstructions (instructions : List Instruction) :
    (ofInstructions instructions).Account [] [] := by
  constructor <;> simp [ofInstructions]

theorem patch_eq_ok_iff (index target : Int) :
    (∃ next, buffer.patch index target = .ok next) ↔ ∃ jump ∈ buffer.pending, index = jump := by
  constructor
  · rintro ⟨next, done⟩
    unfold patch at done
    split at done
    next awaited => exact ⟨index.toNat, awaited.2, (Int.toNat_of_nonneg awaited.1).symm⟩
    next => cases done
  · rintro ⟨jump, waits, rfl⟩
    exact ⟨_, if_pos ⟨Int.natCast_nonneg jump, waits⟩⟩

theorem patch_of_changed {change : Change} {index : Nat} (there : index < buffer.size)
    (changed : (buffer.request change).instructions[index]? ≠ buffer.instructions[index]?) :
    index ∈ buffer.pending ∧ ∃ target, change = .patch index target := by
  cases applied : change.apply buffer with
  | error fault =>
    rw [request_of_error applied] at changed
    exact absurd rfl changed
  | ok next =>
    rw [request_of_ok applied] at changed
    by_cases kept : index ∉ change.patched
    · exact absurd (getElem?_apply applied there kept) changed
    · cases change with
      | patch jump target =>
        obtain ⟨waiting, waits, rfl⟩ := (patch_eq_ok_iff jump target).mp ⟨next, applied⟩
        have same : index = waiting := by simpa [Change.patched] using kept
        exact ⟨same ▸ waits, target, by rw [same]⟩
      | _ => exact absurd List.not_mem_nil kept

theorem getElem?_request_patch {jump : Nat} (waits : jump ∈ buffer.pending) (target : Int) :
    (buffer.request (.patch jump target)).instructions[jump]? =
      buffer.instructions[jump]?.map fun instruction =>
        { instruction with argument := .integer target } := by
  obtain ⟨next, done⟩ := (patch_eq_ok_iff jump target).mpr ⟨jump, waits, rfl⟩
  obtain ⟨_, rfl⟩ := of_patch done
  rw [request_patch_of_ok done, Array.getElem?_modify]
  exact if_pos rfl

def opcodes (buffer : Buffer) : List Opcode :=
  buffer.instructions.toList.map (·.opcode)

theorem opcodes_request (buffer : Buffer) (change : Change) :
    (buffer.request change).opcodes = buffer.opcodes ++ change.opcode?.toList := by
  cases change with
  | emit opcode argument | emitJump opcode =>
    rw [request_of_ok rfl]
    simp [opcodes, emit, emitJump, emitAt, Change.opcode?]
  | allocate =>
    rw [request_of_ok rfl]
    simp [opcodes, allocate, Change.opcode?]
  | patch index target =>
    rw [show (Change.patch index target).opcode? = none from rfl, Option.toList_none, List.append_nil]
    cases done : buffer.patch index target with
    | error fault => rw [request_patch_of_error done]
    | ok next =>
      obtain ⟨_, rfl⟩ := of_patch done
      rw [request_patch_of_ok done]
      apply List.ext_getElem?
      intro place
      simp only [opcodes, Array.toList_modify, List.getElem?_map, List.getElem?_modify]
      cases buffer.instructions.toList[place]? with
      | none => rfl
      | some instruction => split <;> rfl

theorem opcodes_requestAll (changes : List Change) (buffer : Buffer) :
    (buffer.requestAll changes).opcodes = buffer.opcodes ++ changes.filterMap Change.opcode? := by
  induction changes generalizing buffer with
  | nil => simp [requestAll]
  | cons change rest ih =>
    have behind := ih (buffer.request change)
    rw [opcodes_request, List.append_assoc] at behind
    rw [List.filterMap_cons]
    cases added : change.opcode? <;> rw [added] at behind <;> exact behind

theorem cell?_cases (buffer : Buffer) (change : Change) :
    change.isAllocate = false ∧ Answer.cell? (change, change.answer buffer) = none ∧
        (buffer.request change).nextAddress = buffer.nextAddress ∨
      change = .allocate ∧ Answer.cell? (change, change.answer buffer) = some buffer.nextAddress ∧
        (buffer.request change).nextAddress = buffer.nextAddress + 1 := by
  cases change with
  | emit opcode argument | emitJump opcode => exact .inl ⟨rfl, rfl, rfl⟩
  | allocate => exact .inr ⟨rfl, rfl, rfl⟩
  | patch index target =>
    refine .inl ⟨rfl, rfl, ?_⟩
    cases done : buffer.patch index target with
    | error fault => rw [request_patch_of_error done]
    | ok next =>
      rw [request_patch_of_ok done]
      obtain ⟨_, rfl⟩ := of_patch done
      rfl

theorem cells_log (changes : List Change) (buffer : Buffer) :
    (buffer.log changes).filterMap Answer.cell? =
      (List.range (changes.countP Change.isAllocate)).map
        fun count : Nat => buffer.nextAddress + count := by
  induction changes generalizing buffer with
  | nil => rfl
  | cons change rest ih =>
    have behind := ih (buffer.request change)
    rw [filterMap_log_cons]
    rcases buffer.cell?_cases change with ⟨other, noCell, same⟩ | ⟨rfl, cell, more⟩
    · rw [same] at behind
      rw [noCell, List.countP_cons_of_neg (by simp [other])]
      exact behind
    · rw [more] at behind
      rw [cell, Option.toList_some, List.singleton_append, List.countP_cons_of_pos rfl,
        List.range_succ_eq_map, List.map_cons, List.map_map]
      refine List.cons_eq_cons.mpr ⟨(Int.add_zero _).symm, behind.trans (List.map_congr_left ?_)⟩
      intro count _
      exact (Int.add_assoc ..).trans (congrArg _ (Int.add_comm ..))

/-- What holds of a buffer, and of the answers so far, behind any sequence of requests. -/
structure Regular (instructions : List Instruction) (changes : List Change) (buffer : Buffer)
    (log : List (Change × Answer)) : Prop where
  opcodes : buffer.opcodes = instructions.map (·.opcode) ++ changes.filterMap Change.opcode?
  pending : buffer.pending = (log.filterMap Answer.jump?).filter (· ∉ log.filterMap Answer.patch?)
  sorted : buffer.pending.Pairwise (· < ·)
  held : ∀ index ∈ buffer.pending, ∃ opcode,
    buffer.instructions[index]? = some ⟨opcode, .integer placeholder⟩
  patchedOnce : (log.filterMap Answer.patch?).Nodup
  patchedJumps : ∀ index ∈ log.filterMap Answer.patch?, index ∈ log.filterMap Answer.jump?
  accepts : ∀ index target, (∃ next, buffer.patch index target = .ok next) ↔
    ∃ jump ∈ buffer.pending, index = jump
  refuses : ∀ change fault, change.answer buffer = .refused fault → buffer.request change = buffer
  onlyPatches : ∀ change index, index < buffer.size →
    (buffer.request change).instructions[index]? ≠ buffer.instructions[index]? →
    index ∈ buffer.pending ∧ ∃ target, change = .patch index target
  gainsTarget : ∀ jump ∈ buffer.pending, ∀ target,
    (buffer.request (.patch jump target)).instructions[jump]? =
      buffer.instructions[jump]?.map fun instruction =>
        { instruction with argument := .integer target }
  cells : log.filterMap Answer.cell? =
    (List.range (changes.countP Change.isAllocate)).map Int.ofNat

/-- Whatever is asked of a buffer that begins with any instructions: its code only grows, its
placeholders are accounted for and patched once each, and its cells are counted. As the requests are
any, this holds at every moment between two of them. -/
theorem requests_keep_regular (instructions : List Instruction) (changes : List Change) :
    Regular instructions changes ((ofInstructions instructions).requestAll changes)
      ((ofInstructions instructions).log changes) := by
  have account := (account_ofInstructions instructions).requestAll changes
  rw [List.nil_append, List.nil_append] at account
  exact {
    opcodes := by
      rw [opcodes_requestAll]
      simp [Buffer.opcodes, ofInstructions]
    pending := account.pending
    sorted := account.sorted
    held := account.held
    patchedOnce := account.once
    patchedJumps := account.emitted
    accepts := patch_eq_ok_iff
    refuses := fun _ _ refused => request_of_refused refused
    onlyPatches := fun _ _ there => patch_of_changed there
    gainsTarget := fun _ waits => getElem?_request_patch waits
    cells := by
      refine (cells_log changes _).trans (List.map_congr_left ?_)
      intro count _
      exact Int.zero_add _ }

end Pascalet.Buffer
