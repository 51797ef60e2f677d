import Pascalet.Files.Disk

namespace Pascalet.Disk

variable {disk : Disk} {place : List String}

theorem entry?_put_self {entry : Entry} (below : place ≠ []) :
    entry? (disk.put place entry) place = some entry := by
  unfold entry? put
  simp [below]

theorem entry?_put_of_ne {other : List String} {entry : Entry} (different : other ≠ place) :
    entry? (disk.put place entry) other = disk.entry? other := by
  unfold entry? put
  split
  · rfl
  · have skipped : (other == place) = false := beq_false_of_ne different
    rw [List.lookup_cons, skipped]
    induction disk.entries with
    | nil => rfl
    | cons first rest ih =>
      obtain ⟨key, value⟩ := first
      by_cases same : key = place
      · subst same
        simpa [List.lookup_cons, skipped] using ih
      · simp only [ne_eq, same, not_false_eq_true, decide_true, List.filter_cons_of_pos,
          List.lookup_cons]
        split
        · rfl
        · exact ih

theorem entry?_of_walk {here steps : List String} {found : Option Entry}
    (walked : disk.walk here steps = .ok (place, found)) (other : found ≠ some .directory) :
    disk.entry? place = found := by
  fun_induction walk disk here steps with
  | case1 here =>
    cases walked
    exact absurd rfl other
  | case2 here rest ih => exact ih walked
  | case3 here rest _ ih => exact ih walked
  | case4 => cases walked
  | case5 here step rest _ _ _ _ ih => exact ih walked
  | case6 here step _ _ _ _ => cases walked; rfl
  | case7 => cases walked
  | case8 => cases walked

/-- A new file does not change the way to its place, which leads through directories only. -/
theorem walk_put {here steps : List String} {found : Option Entry} {content : ByteArray}
    (walked : disk.walk here steps = .ok (place, found)) (other : found ≠ some .directory) :
    (disk.put place (.file content)).walk here steps = .ok (place, some (.file content)) := by
  have lies := entry?_of_walk walked other
  have below : place ≠ [] := by
    rintro rfl
    exact other lies.symm
  fun_induction walk disk here steps with
  | case1 here =>
    cases walked
    exact absurd rfl other
  | case2 here rest ih =>
    unfold walk
    rw [if_pos rfl]
    exact ih walked
  | case3 here rest notDot ih =>
    unfold walk
    rw [if_neg notDot, if_pos rfl]
    exact ih walked
  | case4 => cases walked
  | case5 here step rest notDot notUp short isDirectory ih =>
    have different : here ++ [step] ≠ place := by
      rintro rfl
      rw [lies] at isDirectory
      exact other isDirectory
    unfold walk
    rw [if_neg notDot, if_neg notUp, if_neg short, entry?_put_of_ne different, isDirectory]
    exact ih walked
  | case6 here step notDot notUp short notDirectory =>
    cases walked
    unfold walk
    rw [if_neg notDot, if_neg notUp, if_neg short, entry?_put_self below]
  | case7 => cases walked
  | case8 => cases walked

theorem locate_put {path : String} {found : Option Entry} {content : ByteArray}
    (located : disk.locate path = .ok (place, found)) (other : found ≠ some .directory) :
    (disk.put place (.file content)).locate path = .ok (place, some (.file content)) := by
  unfold locate at located ⊢
  split at located
  · cases located
  · split at located
    · cases located
    · split at located
      · cases located
      next noNull present short =>
        rw [if_neg noNull, if_neg present, if_neg short]
        exact walk_put located other

theorem fromUTF8?_toUTF8 (text : String) : String.fromUTF8? text.toUTF8 = some text := by
  simp only [String.fromUTF8?, String.toUTF8_eq_toByteArray, dif_pos text.isValidUTF8]
  rfl

theorem readText_of_writeText {path text : String} {written : Disk}
    (done : disk.writeText path text = .ok written) :
    written.readText path = .ok (String.ofList (Text.unifyNewlines text.toList)) := by
  unfold writeText at done
  split at done
  · cases done
  next place found notDirectory located =>
    cases done
    have other : found ≠ some .directory := by
      rintro rfl
      exact notDirectory rfl
    rw [readText, readBytes, locate_put located other]
    simp only [bind, Except.bind, fromUTF8?_toUTF8]
  · cases done

theorem isSystemError_of_walk {here steps : List String} {fault : FileFault}
    (failed : disk.walk here steps = .error fault) (path : String) :
    FileError.isSystemError ⟨fault, path⟩ = true := by
  fun_induction walk disk here steps with
  | case1 => cases failed
  | case2 here rest ih => exact ih failed
  | case3 here rest _ ih => exact ih failed
  | case4 => cases failed; rfl
  | case5 here step rest _ _ _ _ ih => exact ih failed
  | case6 => cases failed
  | case7 => cases failed; rfl
  | case8 => cases failed; rfl

theorem of_locate_error {path : String} {fault : FileFault} (failed : disk.locate path = .error fault) :
    FileError.isSystemError ⟨fault, path⟩ = true ∨
      fault = .nullCharacter ∧ path.contains '\x00' = true := by
  unfold locate at failed
  split at failed
  next null =>
    cases failed
    exact .inr ⟨rfl, null⟩
  next =>
    left
    split at failed
    · cases failed
      rfl
    · split at failed
      · cases failed
        rfl
      · exact isSystemError_of_walk failed path

theorem of_readText_error {path : String} {error : FileError}
    (failed : disk.readText path = .error error) :
    error.isSystemError = true ∨
      error = ⟨.nullCharacter, path⟩ ∧ path.contains '\x00' = true ∨
      ∃ bytes, disk.readBytes path = .ok bytes ∧ String.fromUTF8? bytes = none ∧
        error = ⟨.undecodable, path⟩ := by
  unfold readText at failed
  cases found : disk.readBytes path with
  | ok bytes =>
    simp only [found, bind, Except.bind] at failed
    split at failed
    next => cases failed
    next noText =>
      cases failed
      exact .inr (.inr ⟨bytes, rfl, noText, rfl⟩)
  | error cause =>
    rw [found] at failed
    cases failed
    unfold readBytes at found
    split at found
    next => cases found
    next => cases found; exact .inl rfl
    next => cases found; exact .inl rfl
    next fault located =>
      cases found
      rcases of_locate_error located with system | ⟨rfl, null⟩
      · exact .inl system
      · exact .inr (.inl ⟨rfl, null⟩)

theorem of_writeText_error {path text : String} {error : FileError}
    (failed : disk.writeText path text = .error error) :
    error.isSystemError = true ∨
      error = ⟨.nullCharacter, path⟩ ∧ path.contains '\x00' = true := by
  unfold writeText at failed
  split at failed
  next => cases failed; exact .inl rfl
  next => cases failed
  next fault located =>
    cases failed
    rcases of_locate_error located with system | ⟨rfl, null⟩
    · exact .inl system
    · exact .inr ⟨rfl, null⟩

end Pascalet.Disk
