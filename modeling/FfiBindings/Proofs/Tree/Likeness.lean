import FfiBindings.Proofs.Journal
import FfiBindings.Proofs.Tree.Refusal

/-!
Disks that look alike but for what one file holds, such as a log file. Every path leads to the same place on
both (`LooksLike.locate_eq`), what is read is the same but for that file (`LooksLike.read_eq`), directories are
made or refused alike (`LooksLike.makeDirectories`), and the same file put in the same place leaves them alike
(`LooksLike.of_showsAt`).
-/

set_option autoImplicit false
set_option relaxedAutoImplicit false

namespace FfiBindings.Disk

variable {disk other third after : Disk} {spared : List Location} {path : Path} {location : Location}

/-- The two disks show the same everywhere, but for the spared location, where both may have a file. -/
structure LooksLike (spared : List Location) (disk other : Disk) : Prop where
  current : other.current = disk.current
  umask : other.umask = disk.umask
  sight : ∀ location, other.tree.sight? location = disk.tree.sight? location ∨
    (location ∈ spared ∧ disk.tree.FileAt location ∧ other.tree.FileAt location)

/-- What the journal writes leaves a disk that looks alike but for the log file. -/
theorem LooksLike.of_logged {log : List Location} (h : Session.OnlyLogged log disk after) :
    LooksLike log disk after := by
  refine ⟨h.current, h.umask, fun location => ?_⟩
  rcases h.sight location with hsame | ⟨-, -, hnone⟩ | ⟨⟨hlog, hfile⟩, -, hnew⟩
  · exact .inl hsame
  · exact hnone.elim
  · exact .inr ⟨hlog, hfile, hnew⟩

namespace LooksLike

theorem refl (spared : List Location) (disk : Disk) : LooksLike spared disk disk :=
  ⟨rfl, rfl, fun _ => .inl rfl⟩

theorem symm (h : LooksLike spared disk other) : LooksLike spared other disk := by
  refine ⟨h.current.symm, h.umask.symm, fun location => ?_⟩
  rcases h.sight location with hsame | ⟨hspared, hhere, hthere⟩
  · exact .inl hsame.symm
  · exact .inr ⟨hspared, hthere, hhere⟩

theorem fileAt_iff (h : LooksLike spared disk other) (location : Location) :
    other.tree.FileAt location ↔ disk.tree.FileAt location := by
  rcases h.sight location with hsame | ⟨-, hhere, hthere⟩
  · exact Tree.fileAt_congr hsame
  · exact iff_of_true hthere hhere

theorem directory_iff (h : LooksLike spared disk other) (location : Location) :
    other.tree.sight? location = some .directory ↔ disk.tree.sight? location = some .directory := by
  rcases h.sight location with hsame | ⟨-, hhere, hthere⟩
  · rw [hsame]
  · exact iff_of_false hthere.ne_directory hhere.ne_directory

theorem none_iff (h : LooksLike spared disk other) (location : Location) :
    other.tree.sight? location = none ↔ disk.tree.sight? location = none := by
  rcases h.sight location with hsame | ⟨-, hhere, hthere⟩
  · rw [hsame]
  · exact iff_of_false hthere.ne_none hhere.ne_none

theorem trans (hfirst : LooksLike spared disk other) (hsecond : LooksLike spared other third) :
    LooksLike spared disk third := by
  refine ⟨hsecond.current.trans hfirst.current, hsecond.umask.trans hfirst.umask, fun location => ?_⟩
  rcases hsecond.sight location with hsame | ⟨hspared, hhere, hthere⟩
  · rw [hsame, Tree.fileAt_congr hsame]
    exact hfirst.sight location
  · exact .inr ⟨hspared, (hfirst.fileAt_iff location).1 hhere, hthere⟩

theorem sight?_eq (h : LooksLike spared disk other) (hspared : location ∉ spared) :
    other.tree.sight? location = disk.tree.sight? location := by
  rcases h.sight location with hsame | ⟨hthere, -, -⟩
  · exact hsame
  · exact absurd hthere hspared

theorem keeps (h : LooksLike spared disk other) : KeepsDirectories disk other :=
  ⟨h.current, fun location => (h.directory_iff location).2⟩

/-! ### Paths -/

theorem follow_eq (h : LooksLike spared disk other) (location : Location) (parts : List String) :
    follow other.tree location parts = follow disk.tree location parts := by
  induction parts generalizing location with
  | nil => rfl
  | cons part parts ih =>
    cases parts with
    | nil => rfl
    | cons following parts =>
      rw [follow_cons_cons, follow_cons_cons]
      rcases h.sight (stepTo location part) with hsame | ⟨-, ⟨content, mode, hhere⟩, held, bits, hthere⟩
      · rw [hsame]
        split
        · exact ih (stepTo location part)
        · rfl
        · rfl
      · rw [hhere, hthere]

theorem start_eq (h : LooksLike spared disk other) (path : Path) : other.start path = disk.start path :=
  h.keeps.start_eq path

theorem locate_eq (h : LooksLike spared disk other) (path : Path) : other.locate path = disk.locate path := by
  unfold locate
  rw [h.start_eq, h.follow_eq]

/-- A file that is not spared is found the same. -/
theorem find?_eq_file_iff (h : LooksLike spared disk other) (hspared : disk.place path ∉ spared)
    {content : ByteArray} {mode : Nat} :
    other.find? path = some (.file content mode) ↔ disk.find? path = some (.file content mode) := by
  unfold find?
  rw [h.locate_eq]
  cases hlocate : disk.locate path with
  | error error => rfl
  | ok location =>
    rw [← locate_eq_place hlocate] at hspared
    rw [← Tree.sight?_eq_file_iff, ← Tree.sight?_eq_file_iff, h.sight?_eq hspared]

theorem find?_eq_none_iff (h : LooksLike spared disk other) (path : Path) :
    other.find? path = none ↔ disk.find? path = none := by
  unfold find?
  rw [h.locate_eq]
  cases disk.locate path with
  | error error => rfl
  | ok location => rw [← Tree.sight?_eq_none_iff, ← Tree.sight?_eq_none_iff, h.none_iff]

theorem read_eq (h : LooksLike spared disk other) (hspared : disk.place path ∉ spared) :
    other.read path = disk.read path := by
  unfold read
  rw [h.locate_eq]
  cases hlocate : disk.locate path with
  | error error => rfl
  | ok location =>
    rw [← locate_eq_place hlocate] at hspared
    have hsame := h.sight?_eq hspared
    rcases hsight : disk.tree.sight? location with _ | ⟨content, mode⟩ | _
    · rw [hsight] at hsame
      simp only [Tree.sight?_eq_none_iff.1 hsight, Tree.sight?_eq_none_iff.1 hsame]
    · rw [hsight] at hsame
      simp only [Tree.sight?_eq_file_iff.1 hsight, Tree.sight?_eq_file_iff.1 hsame]
    · rw [hsight] at hsame
      obtain ⟨inside, hinside⟩ := Tree.sight?_eq_directory_iff.1 hsight
      obtain ⟨within, hwithin⟩ := Tree.sight?_eq_directory_iff.1 hsame
      simp only [hinside, hwithin]

/-! ### Making and replacing -/

theorem sameWay (h : LooksLike spared disk other) (path : Path) : SameWay disk other path :=
  ⟨h.keeps, fun above _ => h.fileAt_iff above⟩

/-- Directories are made alike, or refused alike. -/
theorem makeDirectories (h : LooksLike spared disk other) (hcurrent : disk.HasCurrent)
    (hdown : ".." ∉ path.parts) :
    (other.makeDirectories path).2 = (disk.makeDirectories path).2 ∧
      LooksLike spared (disk.makeDirectories path).1 (other.makeDirectories path).1 := by
  obtain ⟨hfailure, hsight⟩ := makeDirectories_congr hdown hcurrent (h.sameWay path)
  have hgrows := makeDirectories_grows hcurrent path
  have hgrowsOther := makeDirectories_grows (h.keeps.hasCurrent hcurrent) path
  refine ⟨hfailure, ?_, ?_, fun location => ?_⟩
  · rw [hgrowsOther.current, hgrows.current, h.current]
  · rw [hgrowsOther.umask, hgrows.umask, h.umask]
  · rw [hsight]
    split
    · rename_i hdirectory
      exact .inl hdirectory.symm
    · rename_i hdirectory
      have hsame : (disk.makeDirectories path).1.tree.sight? location = disk.tree.sight? location := by
        rcases hgrows.sight location with hsame | ⟨-, hnew, -⟩
        · exact hsame
        · exact absurd hnew hdirectory
      have hsameOther : (other.makeDirectories path).1.tree.sight? location = other.tree.sight? location := by
        rw [hsight, if_neg hdirectory]
      rw [hsame, Tree.fileAt_congr hsame, Tree.fileAt_congr hsameOther]
      exact h.sight location

/-- The same file in the same place leaves the disks alike. -/
theorem of_showsAt (h : LooksLike spared disk other) {next : Disk} {sight : Option Sight}
    (hhere : ShowsAt disk after location sight) (hthere : ShowsAt other next location sight) :
    LooksLike spared after next := by
  refine ⟨?_, ?_, fun place => ?_⟩
  · rw [hthere.current, hhere.current, h.current]
  · rw [hthere.umask, hhere.umask, h.umask]
  · have hhere := hhere.sight place
    have hthere := hthere.sight place
    by_cases hplace : place = location
    · rw [if_pos hplace] at hhere hthere
      exact .inl (hthere.trans hhere.symm)
    · rw [if_neg hplace] at hhere hthere
      rw [hthere, hhere, Tree.fileAt_congr hhere, Tree.fileAt_congr hthere]
      exact h.sight place

end LooksLike

end FfiBindings.Disk
