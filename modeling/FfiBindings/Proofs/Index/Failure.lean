import FfiBindings.Proofs.Index.History

/-!
How an update of an index fails. What is refused on the way is an error of the files, but for the text of an
index that is none (`readText_eq_encoding`); and where the medium fails in its own ways only, an update meets a
path that no disk can have just where the index has such a path (`update_eq_nullInPath`). An update that is not
refused comes to what a dry run of it comes to (`update_preview`).
-/

set_option autoImplicit false
set_option relaxedAutoImplicit false

namespace FfiBindings.Index

open Disk

variable {disk : Disk} {path : Path} {faults : Faults} {importPaths : List String} {dryRun : Bool}

/-- No error of the medium is the one of a path that no disk can have. -/
def MediumFails (faults : Faults) : Prop :=
  ∀ step, faults step ≠ some .nullInPath

/-- Bytes that are no text are what an index holds. -/
theorem readText_eq_encoding {fault : Text.Utf8.Fault} (h : readText disk path faults = .error (.encoding fault)) :
    ∃ bytes, disk.read path = .ok bytes ∧ Text.Utf8.decode bytes = .error fault := by
  unfold readText at h
  split at h
  · exact absurd h (by simp)
  · split at h
    · rename_i bytes hbytes
      refine ⟨bytes, hbytes, ?_⟩
      cases hdecode : Text.Utf8.decode bytes with
      | ok text =>
        rw [hdecode] at h
        exact absurd h (by simp [Except.mapError])
      | error other =>
        rw [hdecode] at h
        obtain rfl := UpdateError.encoding.inj (Except.error.inj h)
        rfl
    · split at h
      · exact absurd h (by simp)
      · exact absurd h (by simp)

theorem readText_eq_nullInPath (hmedium : MediumFails faults)
    (h : readText disk path faults = .error (.file .nullInPath)) : hasNull path = true := by
  by_contra hnull
  rw [Bool.not_eq_true] at hnull
  unfold readText at h
  split at h
  · rename_i error hfault
    obtain rfl := UpdateError.file.inj (Except.error.inj h)
    exact hmedium .read hfault
  · split at h
    · rename_i bytes hbytes
      cases hdecode : Text.Utf8.decode bytes <;> simp [hdecode, Except.mapError] at h
    · rename_i error hread
      split at h
      · exact absurd h (by simp)
      · obtain rfl := UpdateError.file.inj (Except.error.inj h)
        exact read_ne_nullInPath hnull hread

/-- A text is read only at a path that a disk can have. -/
theorem hasNull_of_readText {text : String} (h : readText disk path faults = .ok text) : hasNull path = false := by
  by_contra hnull
  have hread : disk.read path = .error .nullInPath := by
    rw [Disk.read, locate, if_pos (by simpa using hnull)]
  unfold readText at h
  split at h
  · exact absurd h (by simp)
  · rw [hread] at h
    exact absurd h (by simp [isNotFound])

theorem replaceAt_ne_nullInPath (hmedium : MediumFails faults) (beside location : Location) (mode : Nat)
    (content : ByteArray) {obstacle : Option FileError} (hobstacle : obstacle ≠ some .nullInPath) :
    (replaceAt disk beside location mode content obstacle faults).2 ≠ some .nullInPath := by
  have hrename : (faults .rename).or obstacle ≠ some .nullInPath := by
    intro hor
    rcases Option.or_eq_some_iff.1 hor with hfault | ⟨-, hthere⟩
    · exact hmedium .rename hfault
    · exact hobstacle hthere
  have htemporary := hmedium .temporary
  have hcontent := hmedium .content
  have hpermissions := hmedium .permissions
  unfold replaceAt
  revert hrename htemporary hcontent hpermissions
  generalize (faults .rename).or obstacle = renamed
  generalize faults .temporary = temporary
  generalize faults .content = written
  generalize faults .permissions = permitted
  intro hrename htemporary hcontent hpermissions
  rcases temporary with _ | error
  · rcases written with _ | error
    · rcases permitted with _ | error
      · rcases renamed with _ | error
        · simp
        · exact hrename
      · exact hpermissions
    · exact hcontent
  · exact htemporary

theorem replaceFile_ne_nullInPath (hmedium : MediumFails faults) (hnull : hasNull path = false)
    (content : ByteArray) : (replaceFile disk path content faults).2 ≠ some .nullInPath := by
  have hprepare : (prepare disk path faults).2 ≠ some .nullInPath := by
    unfold prepare
    split
    · rename_i error hfault
      rw [← hfault]
      exact hmedium .directory
    · exact makeDirectories_ne_nullInPath (hasNull_parent hnull)
  unfold replaceFile
  rcases hmade : prepare disk path faults with ⟨made, _ | error⟩
  · dsimp only
    split
    · rename_i error hlocate
      intro heq
      obtain rfl := Option.some.inj heq
      exact locate_ne_nullInPath (hasNull_temporary hnull _) hlocate
    · rename_i error hlocate _
      intro heq
      obtain rfl := Option.some.inj heq
      exact locate_ne_nullInPath hnull hlocate
    · refine replaceAt_ne_nullInPath hmedium _ _ _ _ ?_
      split <;> simp [directoryInPlace]
  · rw [hmade] at hprepare
    exact hprepare

/-- An update fails where the index is read, or where it is replaced by another file. -/
theorem update_eq_error {error : UpdateError}
    (h : (update disk path importPaths dryRun faults).2 = .error error) :
    readText disk path faults = .error error ∨
      ∃ text failure, readText disk path faults = .ok text ∧ merge text importPaths ≠ text ∧ dryRun = false ∧
        (replaceFile disk path (merge text importPaths).toUTF8 faults).2 = some failure ∧
        error = .file failure := by
  unfold update at h
  cases hread : readText disk path faults with
  | error failure =>
    rw [hread] at h
    exact .inl (congrArg Except.error (Except.error.inj h))
  | ok text =>
    rw [hread] at h
    dsimp only at h
    split at h
    · rename_i hchanged
      rw [Bool.and_eq_true, Update.of, bne_iff_ne, Bool.not_eq_true'] at hchanged
      rcases hreplace : replaceFile disk path (Update.of text importPaths).content.toUTF8 faults with
        ⟨after, _ | failure⟩
      · rw [hreplace] at h
        exact absurd h (by simp)
      · rw [hreplace] at h
        refine .inr ⟨text, failure, rfl, hchanged.1, hchanged.2, ?_, (Except.error.inj h).symm⟩
        exact congrArg Prod.snd hreplace
    · exact absurd h (by simp)

/-- An index that has a text and can be replaced is updated. -/
theorem update_eq_ok {text : String} (hread : readText disk path faults = .ok text)
    (hreplace : (replaceFile disk path (merge text importPaths).toUTF8 faults).2 = none) :
    (update disk path importPaths dryRun faults).2 = .ok (Update.of text importPaths) := by
  unfold update
  rw [hread]
  dsimp only
  split
  · rcases hreplaced : replaceFile disk path (Update.of text importPaths).content.toUTF8 faults with
      ⟨after, _ | failure⟩
    · rfl
    · exact absurd ((congrArg Prod.snd hreplaced).symm.trans hreplace) (by simp)
  · rfl

theorem update_eq_encoding {fault : Text.Utf8.Fault}
    (h : (update disk path importPaths dryRun faults).2 = .error (.encoding fault)) :
    ∃ bytes, disk.read path = .ok bytes ∧ Text.Utf8.decode bytes = .error fault := by
  rcases update_eq_error h with hread | ⟨text, failure, -, -, -, -, hfile⟩
  · exact readText_eq_encoding hread
  · exact absurd hfile (by simp)

theorem update_eq_nullInPath (hmedium : MediumFails faults)
    (h : (update disk path importPaths dryRun faults).2 = .error (.file .nullInPath)) : hasNull path = true := by
  rcases update_eq_error h with hread | ⟨text, failure, hread, -, -, hreplace, hfile⟩
  · exact readText_eq_nullInPath hmedium hread
  · obtain rfl := UpdateError.file.inj hfile
    exact absurd hreplace (replaceFile_ne_nullInPath hmedium (hasNull_of_readText hread) _)

/-! ### Dry runs -/

theorem update_disk_of_dry (disk : Disk) (path : Path) (importPaths : List String) (faults : Faults) :
    (update disk path importPaths true faults).1 = disk := by
  cases hread : readText disk path faults with
  | error error => simp only [update, hread]
  | ok text => rw [update_dry hread]

/-- Whether the files refuse an update: the index can be read and needs another text, but it cannot be replaced. -/
def refuses (disk : Disk) (path : Path) (importPaths : List String) (faults : Faults) : Bool :=
  match readText disk path faults with
  | .error _ => false
  | .ok text =>
    merge text importPaths != text && (replaceFile disk path (merge text importPaths).toUTF8 faults).2.isSome

/-- An update that is not refused comes to what a dry run of it comes to, where both read the same index. -/
theorem update_preview {other : Disk} (hread : readText other path faults = readText disk path faults)
    (h : refuses disk path importPaths faults = false) :
    (update other path importPaths true faults).2 = (update disk path importPaths false faults).2 := by
  unfold update
  unfold refuses at h
  rw [hread]
  cases htext : readText disk path faults with
  | error error => rfl
  | ok text =>
    rw [htext] at h
    dsimp only [Update.of] at h ⊢
    rw [Bool.not_true, Bool.and_false, if_neg Bool.false_ne_true]
    split
    · rename_i hchanged
      rw [Bool.not_false, Bool.and_true] at hchanged
      rw [hchanged, Bool.true_and] at h
      rcases hreplace : replaceFile disk path (merge text importPaths).toUTF8 faults with ⟨after, _ | error⟩
      · rfl
      · rw [hreplace] at h
        exact absurd h (by simp)
    · rfl

end FfiBindings.Index
