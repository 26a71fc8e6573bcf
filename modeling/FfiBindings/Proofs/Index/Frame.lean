import FfiBindings.Proofs.Index.Alike
import FfiBindings.Proofs.Lengthening

/-!
What an update of an index may change, whatever the path is like and whatever fails: directories come, and after
them at most one file, in the place of the index (`update_replaces`). So every other file stays as it is
(`update_changes`); and an index that the path finds before the update goes on what it held, byte for byte
(`update_lengthens`). A path that finds no index before its directories are made may come upon a file then, and
that one is written anew.
-/

set_option autoImplicit false
set_option relaxedAutoImplicit false

namespace FfiBindings.Index

open Disk

variable {disk : Disk} {path : Path} {content : ByteArray} {faults : Faults}

/-- What is seen after a replacement: what was there with some directories more, and perhaps another file in
the place of the path. -/
def Replaces (disk : Disk) (path : Path) (content : ByteArray) (after : Disk) : Prop :=
  ∃ made, Grows disk made (fun _ => True) ∧
    (ShowsAt made after (disk.place path) (made.tree.sight? (disk.place path)) ∨
      made.locate path = .ok (disk.place path) ∧
        made.tree.sight? (disk.place path) ≠ some .directory ∧
        ShowsAt made after (disk.place path) (some (.file content (modeFor made path))))

theorem Replaces.of_grows {made : Disk} (h : Grows disk made fun _ => True) :
    Replaces disk path content made :=
  ⟨made, h, .inl (.refl made _)⟩

theorem replaceFile_replaces (hcurrent : disk.HasCurrent) (path : Path) (content : ByteArray)
    (faults : Faults) : Replaces disk path content (replaceFile disk path content faults).1 := by
  cases hdirectory : faults .directory with
  | some error =>
    simp only [replaceFile, prepare, hdirectory]
    exact .of_grows (.refl disk _)
  | none =>
    have hgrows := (makeDirectories_grows hcurrent path.parent).mono fun _ _ => trivial
    rcases hmade : disk.makeDirectories path.parent with ⟨made, _ | error⟩
    · rw [hmade] at hgrows
      cases hlocate : made.locate path with
      | error error =>
        simp only [replaceFile, prepare, hdirectory, hmade, hlocate]
        split
        · exact .of_grows hgrows
        · exact .of_grows hgrows
        · rename_i hlocated
          exact absurd hlocated (by simp)
      | ok location =>
        obtain ⟨temporary, -, hshows⟩ := replaceFile_made content faults hcurrent hmade hdirectory hlocate
        have hplace := (locate_eq_place hlocate).trans (hgrows.keeps.place_eq path)
        rw [hplace] at hshows hlocate
        refine ⟨made, hgrows, ?_⟩
        by_cases hdone :
            (replacementFault faults).or (obstacleAt made temporary path (disk.place path)) = none
        · rw [if_pos hdone] at hshows
          exact .inr ⟨hlocate, obstacleAt_eq_none_iff.1 (Option.or_eq_none_iff.1 hdone).2, hshows⟩
        · rw [if_neg hdone] at hshows
          exact .inl hshows
    · rw [hmade] at hgrows
      simp only [replaceFile, prepare, hdirectory, hmade]
      exact .of_grows hgrows

theorem Replaces.changes {after : Disk} (h : Replaces disk path content after) :
    Changes (· = disk.place path) (fun _ => True) disk after := by
  obtain ⟨made, hgrows, hsame | ⟨-, hplace, hshows⟩⟩ := h
  · exact (Changes.of_grows hgrows).trans
      ⟨hsame.current, hsame.umask, fun other => .inl (hsame.eq_of_same other)⟩
  · exact (Changes.of_grows hgrows).trans (.of_showsAt hshows hplace rfl)

/-- A replacement goes on what the file held if the content does. A file that the path did not find before may be
written anew. -/
theorem Replaces.lengthens {after : Disk} (h : Replaces disk path content after)
    (hheld : ∀ held mode, disk.find? path = some (.file held mode) →
      ∃ lines, Text.IsWhole lines ∧ content = held ++ lines.toUTF8) :
    Lengthens (fun location => location = disk.place path ∧ disk.find? path = none) disk after := by
  obtain ⟨made, hgrows, hsame | ⟨hlocate, hplace, hshows⟩⟩ := h
  · exact (Lengthens.of_grows hgrows).trans (.of_same hsame)
  refine (Lengthens.of_grows hgrows).trans (.of_showsAt hshows hplace fun held old hthere => ?_)
  have hmade : made.find? path = some (.file held old) := by
    rw [find?, hlocate]
    exact Tree.sight?_eq_file_iff.1 hthere
  have hbefore := hgrows.sight?_eq_file_iff.1 hthere
  refine ⟨by rw [modeFor, hmade], ?_⟩
  cases hfound : disk.find? path with
  | none => exact .inl ⟨rfl, rfl⟩
  | some entry =>
    refine .inr (hheld held old ?_)
    unfold find? at hfound ⊢
    cases hlocated : disk.locate path with
    | error error =>
      rw [hlocated] at hfound
      exact absurd hfound (by simp)
    | ok location =>
      rw [locate_eq_place hlocated]
      exact Tree.sight?_eq_file_iff.1 hbefore

/-- An update replaces the index by one with the merged text, or leaves it. -/
theorem update_replaces (hcurrent : disk.HasCurrent) (path : Path) (importPaths : List String) (dryRun : Bool)
    (faults : Faults) :
    (update disk path importPaths dryRun faults).1 = disk ∨
      ∃ prior, readText disk path faults = .ok prior ∧
        Replaces disk path (merge prior importPaths).toUTF8 (update disk path importPaths dryRun faults).1 := by
  unfold update
  split
  · exact .inl rfl
  · rename_i prior hprior
    dsimp only
    split
    · refine .inr ⟨prior, hprior, ?_⟩
      have hreplaces := replaceFile_replaces hcurrent path (merge prior importPaths).toUTF8 faults
      revert hreplaces
      rw [Update.of]
      rcases replaceFile disk path (merge prior importPaths).toUTF8 faults with ⟨after, _ | error⟩
      · exact id
      · exact id
    · exact .inl rfl

/-- The frame of an update. -/
theorem update_changes (hcurrent : disk.HasCurrent) (path : Path) (importPaths : List String) (dryRun : Bool)
    (faults : Faults) :
    Changes (· = disk.place path) (fun _ => True) disk (update disk path importPaths dryRun faults).1 := by
  rcases update_replaces hcurrent path importPaths dryRun faults with hsame | ⟨prior, -, hreplaces⟩
  · rw [hsame]
    exact .refl _ _ disk
  · exact hreplaces.changes

/-- The text of an index that is found stays at the beginning of it. -/
theorem update_lengthens (hcurrent : disk.HasCurrent) (path : Path) (importPaths : List String) (dryRun : Bool)
    (faults : Faults) :
    Lengthens (fun location => location = disk.place path ∧ disk.find? path = none) disk
      (update disk path importPaths dryRun faults).1 := by
  rcases update_replaces hcurrent path importPaths dryRun faults with hsame | ⟨prior, hprior, hreplaces⟩
  · rw [hsame]
    exact .refl _ disk
  · refine hreplaces.lengthens fun held mode hfound => ?_
    have hdecode := decode_of_readText (Disk.read_eq_ok_iff.2 ⟨mode, hfound⟩) hprior
    obtain ⟨added, hwhole, hadded⟩ := merge_eq_append prior importPaths
    refine ⟨added, hwhole, ?_⟩
    rw [hadded, ← toUTF8_of_decode hdecode]
    exact String.toByteArray_append

/-! ### What an update that succeeds leaves -/

theorem replaceFile_ok (hcurrent : disk.HasCurrent)
    (h : (replaceFile disk path content faults).2 = none) :
    ∃ mode, (replaceFile disk path content faults).1.find? path = some (.file content mode) := by
  cases hdirectory : faults .directory with
  | some error =>
    simp only [replaceFile, prepare, hdirectory] at h
    exact absurd h (by simp)
  | none =>
    have hgrows := (makeDirectories_grows hcurrent path.parent).mono fun _ _ => trivial
    rcases hmade : disk.makeDirectories path.parent with ⟨made, _ | error⟩
    · cases hlocate : made.locate path with
      | error error =>
        simp only [replaceFile, prepare, hdirectory, hmade, hlocate] at h
        split at h
        · exact absurd h (by simp)
        · exact absurd h (by simp)
        · rename_i hlocated
          exact absurd hlocated (by simp)
      | ok location =>
        obtain ⟨temporary, hresult, hshows⟩ := replaceFile_made content faults hcurrent hmade hdirectory hlocate
        have hdone := hresult.symm.trans h
        rw [if_pos hdone] at hshows
        have hplace := obstacleAt_eq_none_iff.1 (Option.or_eq_none_iff.1 hdone).2
        refine ⟨modeFor made path, ?_⟩
        rw [find?, (hshows.keeps hplace).locate_eq_ok hlocate]
        exact Tree.sight?_eq_file_iff.1 hshows.here
    · simp only [replaceFile, prepare, hdirectory, hmade] at h
      exact absurd h (by simp)

/-- An update that succeeds leaves the merged text, also where it had nothing to add. -/
theorem update_find? {importPaths : List String} {result : Update} (hcurrent : disk.HasCurrent)
    (h : (update disk path importPaths false faults).2 = .ok result) :
    ∃ prior mode, readText disk path faults = .ok prior ∧
      (update disk path importPaths false faults).1.find? path =
        some (.file (merge prior importPaths).toUTF8 mode) := by
  unfold update at h ⊢
  cases hprior : readText disk path faults with
  | error error =>
    simp only [hprior] at h
    exact absurd h (by simp)
  | ok prior =>
    simp only [hprior, Bool.not_false, Bool.and_true, Update.of] at h ⊢
    by_cases hchanged : merge prior importPaths = prior
    · -- a text that a merge leaves as it is was there before, for it is not empty
      have hsame : (merge prior importPaths != prior) = false := bne_eq_false_iff_eq.2 hchanged
      simp only [hsame, Bool.false_eq_true, if_false, Except.ok.injEq, exists_and_left]
      refine ⟨prior, rfl, ?_⟩
      cases hread : disk.read path with
      | error error =>
        refine absurd hchanged ?_
        rw [eq_empty_of_readText hread hprior]
        exact merge_empty_ne importPaths
      | ok bytes =>
        obtain ⟨mode, hfound⟩ := Disk.read_eq_ok_iff.1 hread
        rw [hchanged, toUTF8_of_decode (decode_of_readText hread hprior)]
        exact ⟨mode, hfound⟩
    · have hother : (merge prior importPaths != prior) = true := bne_iff_ne.2 hchanged
      simp only [hother, if_true] at h ⊢
      have hreplaced := @replaceFile_ok disk path (merge prior importPaths).toUTF8 faults hcurrent
      revert h hreplaced
      rcases replaceFile disk path (merge prior importPaths).toUTF8 faults with ⟨after, _ | error⟩
      · intro _ hreplaced
        obtain ⟨mode, hfound⟩ := hreplaced rfl
        exact ⟨prior, mode, rfl, hfound⟩
      · intro h
        exact absurd h (by simp)

end FfiBindings.Index
