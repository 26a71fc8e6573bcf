import FfiBindings.Proofs.Index.History
import FfiBindings.Proofs.Index.Idempotence
import FfiBindings.Proofs.Tree.Likeness

/-!
Updates of an index on disks that look alike but for the log file: they are answered alike and leave the
disks alike, also where they fail (`update_alike`). An update that is carried out leaves an index (`update_ok`)
that the same update finds nothing to add to (`Ready.update_again`).
-/

set_option autoImplicit false
set_option relaxedAutoImplicit false

namespace FfiBindings.Index

open Disk

variable {disk other after : Disk} {path : Path} {location : Location} {index : Option IndexFile}
  {spared : List Location} {faults : Faults} {importPaths : List String}

/-! ### What an index needs that can be read -/

theorem toUTF8_of_decode {bytes : ByteArray} {text : String} (h : Text.Utf8.decode bytes = .ok text) :
    text.toUTF8 = bytes := by
  unfold Text.Utf8.decode String.fromUTF8? at h
  split at h
  · rename_i found hfound
    split at hfound
    · rw [← Except.ok.inj h, ← Option.some.inj hfound]
      rfl
    · exact absurd hfound (by simp)
  · exact absurd h (by simp)

theorem read_eq_notFound {error : FileError} (h : disk.read path = .error error)
    (hmissing : isNotFound error = true) : error = .refused .notFound path := by
  unfold Disk.read locate at h
  split at h
  · rename_i hlocate
    split at hlocate
    · rw [← Except.error.inj h, ← Except.error.inj hlocate] at hmissing
      exact absurd hmissing (by simp [isNotFound])
    · cases hfollow : follow disk.tree (disk.start path) path.parts with
      | ok location => simp [hfollow, Except.mapError] at hlocate
      | error refusal =>
        rw [hfollow] at hlocate
        rw [← Except.error.inj h, ← Except.error.inj hlocate] at hmissing ⊢
        cases refusal with
        | notFound => rfl
        | alreadyThere => exact absurd hmissing (by simp [isNotFound])
        | notADirectory => exact absurd hmissing (by simp [isNotFound])
        | isADirectory => exact absurd hmissing (by simp [isNotFound])
  · split at h
    · exact absurd h (by simp)
    · rw [← Except.error.inj h] at hmissing
      exact absurd hmissing (by simp [isNotFound])
    · exact (Except.error.inj h).symm

theorem decode_of_readText {bytes : ByteArray} {text : String} (hbytes : disk.read path = .ok bytes)
    (h : readText disk path faults = .ok text) : Text.Utf8.decode bytes = .ok text := by
  unfold readText at h
  split at h
  · exact absurd h (by simp)
  · simp only [hbytes] at h
    cases hdecode : Text.Utf8.decode bytes with
    | ok found =>
      rw [hdecode] at h
      exact congrArg Except.ok (Except.ok.inj h)
    | error fault =>
      rw [hdecode] at h
      exact absurd h (by simp [Except.mapError])

/-- An index that is not there has no text. -/
theorem eq_empty_of_readText {error : FileError} {text : String} (herror : disk.read path = .error error)
    (h : readText disk path faults = .ok text) : text = "" := by
  unfold readText at h
  split at h
  · exact absurd h (by simp)
  · simp only [herror] at h
    split at h
    · exact (Except.ok.inj h).symm
    · exact absurd h (by simp)

/-- An index that can be read at a plain path has all that an update needs. -/
theorem exists_ready (hdown : ".." ∉ path.parts) (hcurrent : disk.HasCurrent) {text : String}
    (h : readText disk path faults = .ok text) :
    faults .read = none ∧ ∃ index, Ready disk path (disk.place path) index ∧ textOf index = text := by
  have htext (bytes : ByteArray) (hbytes : disk.read path = .ok bytes) :
      Text.Utf8.decode bytes = .ok text :=
    decode_of_readText hbytes h
  unfold readText at h
  split at h
  · exact absurd h (by simp)
  rename_i hread
  refine ⟨hread, ?_⟩
  have hplain (hresult : disk.read path ≠ .error .nullInPath) : IsPlain path := by
    refine ⟨hdown, ?_⟩
    by_contra hnull
    refine hresult ?_
    rw [Disk.read, locate, if_pos (by simpa using hnull)]
  split at h
  · rename_i bytes hbytes
    have hdecode := htext bytes hbytes
    have hpath := hplain (by rw [hbytes]; simp)
    obtain ⟨mode, hsight⟩ := (hpath.read_eq_ok_iff hcurrent).1 hbytes
    refine ⟨some ⟨text, mode⟩, .of_startsFrom hcurrent ?_, rfl⟩
    rw [StartsFrom, IndexFile.entry, toUTF8_of_decode hdecode]
    exact hpath.find?_of_sight hcurrent hsight
  · rename_i error herror
    split at h
    · rename_i hmissing
      rw [read_eq_notFound herror hmissing] at herror
      have hpath := hplain (by rw [herror]; simp)
      obtain ⟨hnone, hopen⟩ := hpath.isOpen_of_notFound hcurrent herror
      exact ⟨none, .of_startsFrom hcurrent (startsFrom_none hpath hcurrent hnone hopen),
        Except.ok.inj h⟩
    · exact absurd h (by simp)

/-! ### On disks that look alike -/

theorem readText_alike (hlook : LooksLike spared disk other) (hspared : disk.place path ∉ spared) :
    readText other path faults = readText disk path faults := by
  unfold readText
  rw [hlook.read_eq hspared]

theorem Ready.alike (h : Ready disk path location index) (hdown : ".." ∉ path.parts)
    (hlook : LooksLike spared disk other) (hspared : location ∉ spared) :
    Ready other path location index := by
  have hplace := h.location_eq
  rw [hplace] at hspared
  have hparent : ".." ∉ path.parent.parts := fun hmem => hdown (List.dropLast_subset _ hmem)
  obtain ⟨hfailure, hmade⟩ := hlook.makeDirectories h.current hparent
  refine ⟨hlook.keeps.hasCurrent h.current, ?_, fun faults hread => ?_, ?_, ?_, ?_⟩
  · cases index with
    | none => exact (hlook.find?_eq_none_iff path).2 h.found
    | some file => exact (hlook.find?_eq_file_iff hspared).2 h.found
  · rw [readText_alike hlook hspared]
    exact h.read faults hread
  · rw [hfailure]
    exact h.made
  · rw [hmade.locate_eq]
    exact h.located
  · rw [hmade.sight?_eq (hplace ▸ hspared)]
    exact h.sight

theorem update_of_error {error : UpdateError} (h : readText disk path faults = .error error)
    (dryRun : Bool) : update disk path importPaths dryRun faults = (disk, .error error) := by
  simp only [update, h]

theorem update_of_directoryFault {text : String} {error : FileError}
    (h : readText disk path faults = .ok text) (hchanged : merge text importPaths ≠ text)
    (hdirectory : faults .directory = some error) :
    update disk path importPaths false faults = (disk, .error (.file error)) := by
  rw [update_changed h hchanged]
  simp only [replaceFile, prepare, hdirectory]

/-- An update is answered alike on disks that look alike, and leaves them alike. -/
theorem update_alike (hdown : ".." ∉ path.parts) (hcurrent : disk.HasCurrent)
    (hlook : LooksLike spared disk other) (hspared : disk.place path ∉ spared)
    (importPaths : List String) (dryRun : Bool) (faults : Faults) :
    (update other path importPaths dryRun faults).2 = (update disk path importPaths dryRun faults).2 ∧
      LooksLike spared (update disk path importPaths dryRun faults).1
        (update other path importPaths dryRun faults).1 := by
  have hsame : readText other path faults = readText disk path faults := readText_alike hlook hspared
  cases hread : readText disk path faults with
  | error error =>
    rw [update_of_error hread, update_of_error (hsame.trans hread)]
    exact ⟨rfl, hlook⟩
  | ok text =>
    obtain ⟨hfault, index, hready, rfl⟩ := exists_ready hdown hcurrent hread
    have hreadyOther := hready.alike hdown hlook hspared
    by_cases hidle : merge (textOf index) importPaths = textOf index
    · rw [hready.update_eq_self hfault hidle, hreadyOther.update_eq_self hfault hidle]
      exact ⟨rfl, hlook⟩
    cases dryRun with
    | true =>
      rw [update_dry hread, update_dry (hsame.trans hread)]
      exact ⟨rfl, hlook⟩
    | false =>
      cases hdirectory : faults .directory with
      | some error =>
        rw [update_of_directoryFault hread hidle hdirectory,
          update_of_directoryFault (hsame.trans hread) hidle hdirectory]
        exact ⟨rfl, hlook⟩
      | none =>
        obtain ⟨hresult, hshows⟩ := hready.update_spec hfault hdirectory hidle
        obtain ⟨hresultOther, hshowsOther⟩ := hreadyOther.update_spec hfault hdirectory hidle
        have hparent : ".." ∉ path.parent.parts := fun hmem => hdown (List.dropLast_subset _ hmem)
        have hmode : other.newFileMode = disk.newFileMode := by
          rw [newFileMode, newFileMode, hlook.umask]
        rw [hmode] at hshowsOther
        exact ⟨hresultOther.trans hresult.symm,
          (hlook.makeDirectories hcurrent hparent).2.of_showsAt hshows hshowsOther⟩

/-! ### Twice the same -/

/-- An update that is carried out leaves an index that holds the merge, and changes nothing besides. -/
theorem update_ok (hdown : ".." ∉ path.parts) (hcurrent : disk.HasCurrent) {update : Update}
    (h : Index.update disk path importPaths false faults = (after, .ok update)) :
    faults .read = none ∧ ∃ text file, update = Update.of text importPaths ∧
      Ready after path (disk.place path) (some file) ∧ file.text = merge text importPaths ∧
      Changes (· = disk.place path) (AboveIndex disk path) disk after := by
  cases hread : readText disk path faults with
  | error error =>
    rw [update_of_error hread] at h
    exact absurd (Prod.mk.inj h).2 (by simp)
  | ok text =>
    obtain ⟨hfault, index, hready, rfl⟩ := exists_ready hdown hcurrent hread
    refine ⟨hfault, textOf index, ?_⟩
    by_cases hidle : merge (textOf index) importPaths = textOf index
    · rw [hready.update_eq_self hfault hidle] at h
      obtain ⟨rfl, hupdate⟩ := Prod.mk.inj h
      cases index with
      | none => exact absurd hidle (merge_empty_ne importPaths)
      | some file =>
        exact ⟨file, (Except.ok.inj hupdate).symm, hready, hidle.symm, Changes.refl _ _ _⟩
    · cases hdirectory : faults .directory with
      | some error =>
        rw [update_of_directoryFault hread hidle hdirectory] at h
        exact absurd (Prod.mk.inj h).2 (by simp)
      | none =>
        obtain ⟨hresult, hshows⟩ := hready.update_spec hfault hdirectory hidle
        rw [h] at hresult hshows
        cases hreplacement : replacementFault faults with
        | some error =>
          rw [hreplacement] at hresult
          exact absurd hresult (by simp)
        | none =>
          rw [hreplacement] at hresult
          rw [if_pos hreplacement] at hshows
          refine ⟨⟨merge (textOf index) importPaths, (index.map IndexFile.mode).getD disk.newFileMode⟩,
            Except.ok.inj hresult, hready.shows hshows, rfl, hready.changes hshows (.inr ⟨_, _, rfl⟩)⟩

/-- The same update again finds nothing to add. -/
theorem Ready.update_again {file : IndexFile} (h : Ready disk path location (some file))
    (hread : faults .read = none) {text : String} (htext : file.text = merge text importPaths)
    (hlines : ∀ importPath ∈ importPaths, Text.IsLine importPath.toList) (dryRun : Bool) :
    ∃ again, Index.update disk path importPaths dryRun faults = (disk, .ok again) ∧
      again.changed = false := by
  have hidle : merge (textOf (some file)) importPaths = textOf (some file) := by
    rw [textOf_some, htext, merge_merge text hlines]
  refine ⟨_, h.update_eq_self hread hidle, ?_⟩
  simp [Update.of, hidle]

end FfiBindings.Index
