import FfiBindings.Proofs.Tree.Way

/-!
What can happen to a disk. Directories come to it (`Grows`), one location comes to show something else
(`ShowsAt`), or files come to some locations and directories to others (`Changes`); in all of these the
directories that were there stay (`KeepsDirectories`), and every path that led somewhere leads there still.
Changes follow each other (`Changes.trans`), and away from their locations everything is what it was.
-/

set_option autoImplicit false
set_option relaxedAutoImplicit false

namespace FfiBindings.Disk

variable {disk middle after : Disk} {path : Path} {location result : Location}

/-! ### Keeping the directories -/

/-- All directories of the first disk are on the second one. -/
structure KeepsDirectories (disk after : Disk) : Prop where
  current : after.current = disk.current
  directory : ∀ location, disk.tree.sight? location = some .directory →
    after.tree.sight? location = some .directory

namespace KeepsDirectories

theorem refl (disk : Disk) : KeepsDirectories disk disk :=
  ⟨rfl, fun _ h => h⟩

theorem trans (hfirst : KeepsDirectories disk middle) (hsecond : KeepsDirectories middle after) :
    KeepsDirectories disk after :=
  ⟨hsecond.current.trans hfirst.current, fun location h =>
    hsecond.directory location (hfirst.directory location h)⟩

theorem start_eq (h : KeepsDirectories disk after) (path : Path) : after.start path = disk.start path := by
  unfold start
  rw [h.current]

theorem place_eq (h : KeepsDirectories disk after) (path : Path) : after.place path = disk.place path := by
  rw [place, place, h.start_eq]

theorem hasCurrent (h : KeepsDirectories disk after) (hcurrent : disk.HasCurrent) :
    after.HasCurrent := by
  unfold HasCurrent
  rw [h.current]
  exact h.directory _ hcurrent

theorem locate_eq_ok (h : KeepsDirectories disk after) (hbefore : disk.locate path = .ok location) :
    after.locate path = .ok location := by
  obtain ⟨hnull, hfollow⟩ := locate_eq_ok_iff.1 hbefore
  refine locate_eq_ok_iff.2 ⟨hnull, ?_⟩
  rw [h.start_eq]
  exact follow_of_directories h.directory hfollow

theorem isDirectory (h : KeepsDirectories disk after) (hbefore : disk.isDirectory path = true) :
    after.isDirectory path = true := by
  obtain ⟨hnull, hlead⟩ := isDirectory_iff.1 hbefore
  refine isDirectory_iff.2 ⟨hnull, ?_⟩
  rw [h.start_eq]
  exact hlead.of_directories h.directory

end KeepsDirectories

/-! ### Growing by directories -/

/-- The second disk has all of the first one and further directories at some of the locations. -/
structure Grows (disk after : Disk) (through : Location → Prop) : Prop where
  current : after.current = disk.current
  umask : after.umask = disk.umask
  sight : ∀ location, after.tree.sight? location = disk.tree.sight? location ∨
    disk.tree.sight? location = none ∧ after.tree.sight? location = some .directory ∧ through location

namespace Grows

variable {through more : Location → Prop}

theorem refl (disk : Disk) (through : Location → Prop) : Grows disk disk through :=
  ⟨rfl, rfl, fun _ => .inl rfl⟩

theorem mono (h : Grows disk after through) (hmore : ∀ location, through location → more location) :
    Grows disk after more := by
  refine ⟨h.current, h.umask, ?_⟩
  intro location
  rcases h.sight location with hsame | ⟨hnone, hnew, hthrough⟩
  · exact .inl hsame
  · exact .inr ⟨hnone, hnew, hmore location hthrough⟩

theorem trans (hfirst : Grows disk middle through) (hsecond : Grows middle after through) :
    Grows disk after through := by
  refine ⟨hsecond.current.trans hfirst.current, hsecond.umask.trans hfirst.umask, ?_⟩
  intro location
  rcases hfirst.sight location with hsame | ⟨hnone, hnew, hthrough⟩
  · rcases hsecond.sight location with hagain | ⟨hnone, hnew, hthrough⟩
    · exact .inl (hagain.trans hsame)
    · exact .inr ⟨hsame ▸ hnone, hnew, hthrough⟩
  · rcases hsecond.sight location with hagain | ⟨hmiddle, -, -⟩
    · exact .inr ⟨hnone, hagain.trans hnew, hthrough⟩
    · rw [hnew] at hmiddle
      exact absurd hmiddle (by simp)

/-- What is seen before is seen after. -/
theorem sight?_eq_some (h : Grows disk after through) {sight : Sight}
    (hbefore : disk.tree.sight? location = some sight) : after.tree.sight? location = some sight := by
  rcases h.sight location with hsame | ⟨hnone, -, -⟩
  · rw [hsame, hbefore]
  · rw [hbefore] at hnone
    exact absurd hnone (by simp)

theorem sight?_eq_file_iff (h : Grows disk after through) {content : ByteArray} {mode : Nat} :
    after.tree.sight? location = some (.file content mode) ↔
      disk.tree.sight? location = some (.file content mode) := by
  refine ⟨fun hafter => ?_, h.sight?_eq_some⟩
  rcases h.sight location with hsame | ⟨-, hnew, -⟩
  · rw [← hsame, hafter]
  · rw [hafter] at hnew
    exact absurd hnew (by simp)

theorem keeps (h : Grows disk after through) : KeepsDirectories disk after :=
  ⟨h.current, fun _ => h.sight?_eq_some⟩

end Grows

/-! ### Another file at one location -/

/-- The second disk shows something else at one location, and what the first one does everywhere
besides. -/
structure ShowsAt (disk after : Disk) (location : Location) (sight : Option Sight) : Prop where
  current : after.current = disk.current
  umask : after.umask = disk.umask
  sight : ∀ other, after.tree.sight? other =
    if other = location then sight else disk.tree.sight? other

namespace ShowsAt

variable {sight further : Option Sight}

theorem refl (disk : Disk) (location : Location) :
    ShowsAt disk disk location (disk.tree.sight? location) := by
  refine ⟨rfl, rfl, ?_⟩
  intro other
  split
  · rename_i heq
    rw [heq]
  · rfl

theorem here (h : ShowsAt disk after location sight) : after.tree.sight? location = sight := by
  rw [h.sight, if_pos rfl]

/-- Nothing is changed where the location shows what it did. -/
theorem eq_of_same (h : ShowsAt disk after location (disk.tree.sight? location)) (other : Location) :
    after.tree.sight? other = disk.tree.sight? other := by
  rw [h.sight]
  split
  · rename_i heq
    rw [heq]
  · rfl

/-- Where no directory was, the directories stay as they are. -/
theorem keeps (h : ShowsAt disk after location sight)
    (hplace : disk.tree.sight? location ≠ some .directory) : KeepsDirectories disk after := by
  refine ⟨h.current, ?_⟩
  intro other hbefore
  rw [h.sight, if_neg, hbefore]
  rintro rfl
  exact hplace hbefore

end ShowsAt

/-! ### Changing some files -/

/-- What happens on a disk when files come to some locations and directories to others: nothing else
changes, and no directory goes. -/
structure Changes (files through : Location → Prop) (disk after : Disk) : Prop where
  current : after.current = disk.current
  umask : after.umask = disk.umask
  sight : ∀ location, after.tree.sight? location = disk.tree.sight? location ∨
    (disk.tree.sight? location = none ∧ after.tree.sight? location = some .directory ∧
      through location) ∨
    (files location ∧ disk.tree.sight? location ≠ some .directory ∧
      ∃ content mode, after.tree.sight? location = some (.file content mode))

namespace Changes

variable {files through moreFiles more : Location → Prop}

theorem refl (files through : Location → Prop) (disk : Disk) : Changes files through disk disk :=
  ⟨rfl, rfl, fun _ => .inl rfl⟩

theorem mono (h : Changes files through disk after)
    (hfiles : ∀ location, files location → moreFiles location)
    (hmore : ∀ location, through location → more location) : Changes moreFiles more disk after := by
  refine ⟨h.current, h.umask, ?_⟩
  intro location
  rcases h.sight location with hsame | ⟨hnone, hnew, hthrough⟩ | ⟨hfile, hplace, hnew⟩
  · exact .inl hsame
  · exact .inr (.inl ⟨hnone, hnew, hmore location hthrough⟩)
  · exact .inr (.inr ⟨hfiles location hfile, hplace, hnew⟩)

theorem keeps (h : Changes files through disk after) : KeepsDirectories disk after := by
  refine ⟨h.current, ?_⟩
  intro location hbefore
  rcases h.sight location with hsame | ⟨hnone, -, -⟩ | ⟨-, hplace, -⟩
  · rw [hsame, hbefore]
  · rw [hbefore] at hnone
    exact absurd hnone (by simp)
  · exact absurd hbefore hplace

theorem newFileMode_eq (h : Changes files through disk after) :
    after.newFileMode = disk.newFileMode := by
  unfold newFileMode
  rw [h.umask]

theorem trans (hfirst : Changes files through disk middle)
    (hsecond : Changes files through middle after) : Changes files through disk after := by
  refine ⟨hsecond.current.trans hfirst.current, hsecond.umask.trans hfirst.umask, ?_⟩
  intro location
  rcases hsecond.sight location with hagain | ⟨hmiddle, hnew, hthrough⟩ | ⟨hfile, hmiddle, hnew⟩
  · rw [hagain]
    exact hfirst.sight location
  · rcases hfirst.sight location with hsame | ⟨-, hdirectory, -⟩ | ⟨-, -, content, mode, hthere⟩
    · exact .inr (.inl ⟨hsame ▸ hmiddle, hnew, hthrough⟩)
    · rw [hmiddle] at hdirectory
      exact absurd hdirectory (by simp)
    · rw [hmiddle] at hthere
      exact absurd hthere (by simp)
  · exact .inr (.inr ⟨hfile, fun hbefore => hmiddle (hfirst.keeps.directory location hbefore), hnew⟩)

theorem of_grows (h : Grows disk after through) : Changes files through disk after := by
  refine ⟨h.current, h.umask, ?_⟩
  intro location
  rcases h.sight location with hsame | hnew
  · exact .inl hsame
  · exact .inr (.inl hnew)

theorem of_showsAt {content : ByteArray} {mode : Nat}
    (h : ShowsAt disk after location (some (.file content mode)))
    (hplace : disk.tree.sight? location ≠ some .directory) (hfile : files location) :
    Changes files through disk after := by
  refine ⟨h.current, h.umask, ?_⟩
  intro other
  rw [h.sight]
  split
  · rename_i heq
    exact .inr (.inr ⟨heq ▸ hfile, heq ▸ hplace, content, mode, rfl⟩)
  · exact .inl rfl

/-- Away from the locations where files come, the files are the same. -/
theorem sight?_eq_file_iff (h : Changes files through disk after) (hfile : ¬ files location)
    {content : ByteArray} {mode : Nat} :
    after.tree.sight? location = some (.file content mode) ↔
      disk.tree.sight? location = some (.file content mode) := by
  rcases h.sight location with hsame | ⟨hnone, hnew, -⟩ | ⟨hhere, -, -⟩
  · rw [hsame]
  · rw [hnone, hnew]
    simp
  · exact absurd hhere hfile

/-- A file that is there was there before, or it may have come. -/
theorem fileAt (h : Changes files through disk after) (hthere : after.tree.FileAt location) :
    disk.tree.FileAt location ∨ files location := by
  rcases h.sight location with hsame | ⟨-, hnew, -⟩ | ⟨hhere, -, -⟩
  · exact .inl ((Tree.fileAt_congr hsame).1 hthere)
  · exact absurd hnew hthere.ne_directory
  · exact .inr hhere

/-- Where no directory comes, there is one only if there was. -/
theorem sight?_ne_directory (h : Changes files through disk after) (hthrough : ¬ through location)
    (hbefore : disk.tree.sight? location ≠ some .directory) :
    after.tree.sight? location ≠ some .directory := by
  rcases h.sight location with hsame | ⟨-, -, hhere⟩ | ⟨-, -, content, mode, hnew⟩
  · rw [hsame]
    exact hbefore
  · exact absurd hhere hthrough
  · rw [hnew]
    simp

/-- Away from all the locations, everything is the same. -/
theorem sight?_eq (h : Changes files through disk after) (hfile : ¬ files location)
    (hthrough : ¬ through location) : after.tree.sight? location = disk.tree.sight? location := by
  rcases h.sight location with hsame | ⟨-, -, hhere⟩ | ⟨hhere, -, -⟩
  · exact hsame
  · exact absurd hhere hthrough
  · exact absurd hhere hfile

/-- A file that is found is found again, if no other comes in its place. -/
theorem find?_eq_file (h : Changes files through disk after) (hfile : ¬ files (disk.place path))
    {content : ByteArray} {mode : Nat} (hfound : disk.find? path = some (.file content mode)) :
    after.find? path = some (.file content mode) := by
  unfold find? at hfound ⊢
  cases hlocate : disk.locate path with
  | error error =>
    rw [hlocate] at hfound
    exact absurd hfound (by simp)
  | ok location =>
    rw [hlocate] at hfound
    rw [← locate_eq_place hlocate] at hfile
    rw [h.keeps.locate_eq_ok hlocate]
    exact Tree.sight?_eq_file_iff.1 ((h.sight?_eq_file_iff hfile).2 (Tree.sight?_eq_file_iff.2 hfound))

end Changes

end FfiBindings.Disk
