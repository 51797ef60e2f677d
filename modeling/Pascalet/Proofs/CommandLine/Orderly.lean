import Pascalet.CommandLine.Invocation

namespace Pascalet.CommandLine

inductive IsNote (settings : Settings) : Message → Prop where
  | note {channel : Channel} {text : String} (asked : settings.verbose = true) :
    IsNote settings (.note channel text)
  | unwritable (asked : settings.verbose = true) : IsNote settings (.remark .unwritableNumber)

section Notes

variable {settings : Settings}

def Noted (settings : Settings) (before after : Console) : Prop :=
  ∃ notes, (∀ message ∈ notes, IsNote settings message) ∧ after.messages = before.messages ++ notes

theorem Noted.of_messages {before after : Console} (same : after.messages = before.messages) :
    Noted settings before after :=
  ⟨[], List.forall_mem_nil _, by rw [same, List.append_nil]⟩

theorem Noted.trans {before middle after : Console} (first : Noted settings before middle)
    (second : Noted settings middle after) : Noted settings before after := by
  obtain ⟨notes, areNotes, messages⟩ := first
  obtain ⟨more, areToo, messagesToo⟩ := second
  refine ⟨notes ++ more, ?_, ?_⟩
  · intro message member
    exact (List.mem_append.mp member).elim (areNotes message) (areToo message)
  · rw [messagesToo, messages, List.append_assoc]

theorem noted_note (console : Console) {message : Message}
    (isNote : settings.verbose = true → IsNote settings message) :
    Noted settings console (console.note settings message) := by
  unfold Console.note
  split
  next asked =>
    refine ⟨[message], ?_, rfl⟩
    intro other member
    rw [List.mem_singleton.mp member]
    exact isNote asked
  next => exact .of_messages rfl

end Notes

/-- An action on a disk that writes nothing but notes for errors, and fails only as is permitted. -/
structure Orderly {α : Type} (settings : Settings) (permits : Failure → Prop) (disk : Disk)
    (post : α → Disk → Prop) (action : Action α) : Prop where
  ends : ∀ console, console.disk = disk → match action console with
    | .ok value after => Noted settings console after ∧ post value after.disk
    | .error failure after => Noted settings console after ∧ permits failure

section Orderly

variable {α β : Type} {settings : Settings} {permits : Failure → Prop} {disk : Disk}

theorem Orderly.bind {middle : α → Disk → Prop} {post : β → Disk → Prop} {action : Action α}
    {next : α → Action β} (first : Orderly settings permits disk middle action)
    (second : ∀ value reached, middle value reached →
      Orderly settings permits reached post (next value)) :
    Orderly settings permits disk post (action >>= next) := by
  constructor
  intro console here
  have begun := first.ends console here
  have split : (action >>= next) console = match action console with
      | .ok value after => next value after
      | .error failure after => .error failure after := by
    simp only [Bind.bind, EStateM.bind]
    cases action console <;> rfl
  rw [split]
  cases result : action console with
  | error failure after =>
    rw [result] at begun
    exact begun
  | ok value after =>
    rw [result] at begun
    obtain ⟨noted, holds⟩ := begun
    have ended := (second value after.disk holds).ends after rfl
    dsimp only
    cases result : next value after with
    | ok last reached =>
      rw [result] at ended
      exact ⟨noted.trans ended.1, ended.2⟩
    | error failure reached =>
      rw [result] at ended
      exact ⟨noted.trans ended.1, ended.2⟩

theorem Orderly.mono {post weaker : α → Disk → Prop} {action : Action α}
    (orderly : Orderly settings permits disk post action)
    (weaken : ∀ value reached, post value reached → weaker value reached) :
    Orderly settings permits disk weaker action := by
  constructor
  intro console here
  have ended := orderly.ends console here
  cases result : action console with
  | ok value after =>
    rw [result] at ended
    exact ⟨ended.1, weaken value _ ended.2⟩
  | error failure after =>
    rw [result] at ended
    exact ended

theorem orderly_pure {post : α → Disk → Prop} {value : α} (holds : post value disk) :
    Orderly settings permits disk post (pure value) := by
  constructor
  rintro console rfl
  exact ⟨.of_messages rfl, holds⟩

theorem orderly_throw {post : α → Disk → Prop} {failure : Failure} (permitted : permits failure) :
    Orderly settings permits disk post (throw failure) :=
  ⟨fun _ _ => ⟨.of_messages rfl, permitted⟩⟩

theorem orderly_get : Orderly settings permits disk
    (fun (console : Console) reached => console.disk = disk ∧ disk = reached) get :=
  ⟨fun _ here => ⟨.of_messages rfl, here, here.symm⟩⟩

theorem orderly_print (line : String) :
    Orderly settings permits disk (fun _ reached => disk = reached) (print line) :=
  ⟨fun _ here => ⟨.of_messages rfl, here.symm⟩⟩

theorem orderly_modify_note {message : Message}
    (isNote : settings.verbose = true → IsNote settings message) :
    Orderly settings permits disk (fun _ reached => disk = reached)
      (modify (·.note settings message)) := by
  constructor
  rintro console rfl
  refine ⟨noted_note console isNote, ?_⟩
  show console.disk = (console.note settings message).disk
  unfold Console.note
  split <;> rfl

theorem orderly_note (channel : Channel) (text : String) :
    Orderly settings permits disk (fun _ reached => disk = reached) (note settings channel text) :=
  orderly_modify_note .note

theorem orderly_noteCells (channel : Channel) (text : String) (cells : Int) :
    Orderly settings permits disk (fun _ reached => disk = reached)
      (noteCells settings channel text cells) := by
  unfold noteCells
  cases Numeral.isWritable cells with
  | true => exact orderly_note channel _
  | false => exact orderly_modify_note .unwritable

theorem orderly_obtain {result : Except SessionError α}
    (permitted : ∀ error, result = .error error → permits (.session error)) :
    Orderly settings permits disk (fun value reached => disk = reached ∧ result = .ok value)
      (obtain result) := by
  cases result with
  | ok value => exact orderly_pure ⟨rfl, rfl⟩
  | error error => exact orderly_throw (permitted error rfl)

theorem orderly_optional {asked : Bool} {action : Action PUnit} {next : PUnit → Action β}
    {post : β → Disk → Prop}
    (acts : Orderly settings permits disk (fun _ reached => disk = reached) action)
    (goesOn : Orderly settings permits disk post (next ⟨⟩)) :
    Orderly settings permits disk post (if asked then action >>= next else next ⟨⟩) := by
  cases asked with
  | false => exact goesOn
  | true =>
    apply acts.bind
    rintro _ _ rfl
    exact goesOn

theorem orderly_forM {action : α → Action PUnit} (each : ∀ item,
      Orderly settings permits disk (fun _ reached => disk = reached) (action item)) (items : List α) :
    Orderly settings permits disk (fun _ reached => disk = reached) (items.forM action) := by
  induction items with
  | nil => exact orderly_pure rfl
  | cons item rest ih =>
    refine (each item).bind ?_
    rintro _ _ rfl
    exact ih

end Orderly

end Pascalet.CommandLine
