import FfiBindings.Proofs.Tree.Plain

/-!
What making directories comes to, told by what is seen. On a path that goes down only, directories
are refused exactly where a file is on the way (`makeDirectories_blocked`), and else they are all there
afterwards and nothing besides (`makeDirectories_open`). So two disks with the same files on the way refuse
the same, and what is made on one is made on the other (`makeDirectories_congr`); and where they show the same at
the place of a path, reading comes to the same (`SameWay.read_eq`).
-/

set_option autoImplicit false
set_option relaxedAutoImplicit false

namespace FfiBindings.Disk

open Path (walkUpAndDown)

variable {disk start after : Disk} {path : Path} {location other : Location}

/-! ### Making directories -/

/-- What fails for the last directory, for another reason than a missing directory above it, fails for
all. -/
theorem makeDirectories_of_error {error : FileError} (hparts : path.parts ≠ [])
    (hmake : disk.makeDirectory path = .error error) (hfound : isNotFound error = false)
    (hdirectory : disk.isDirectory path = false) : disk.makeDirectories path = (disk, some error) := by
  obtain ⟨anchor, parts⟩ := path
  rcases List.eq_nil_or_concat parts with rfl | ⟨above, last, rfl⟩
  · exact absurd rfl hparts
  · rw [List.concat_eq_append] at hmake hdirectory ⊢
    have hback : (last :: above.reverse).reverse = above ++ [last] := by simp
    rw [makeDirectories, List.reverse_append, List.reverse_singleton, List.singleton_append]
    simp only [makeDirectoriesUp, hback, hmake, hfound, Bool.false_eq_true, if_false, hdirectory]

theorem makeDirectories_null (hnull : hasNull path = true) :
    disk.makeDirectories path = (disk, some .nullInPath) := by
  have hlocate : disk.locate path = .error .nullInPath := by
    rw [locate, if_pos hnull]
  refine makeDirectories_of_error ?_ ?_ rfl ?_
  · intro hnil
    simp [hasNull, hnil] at hnull
  · simp only [makeDirectory, hlocate]
  · simp only [isDirectory, find?, hlocate, Option.any_none]

/-- A file is at the place of the path, or above it. -/
def Blocked (disk : Disk) (path : Path) : Prop :=
  ∃ above, above <+: disk.place path ∧ disk.tree.FileAt above

/-- Why directories are not made where a file is on the way: it is in the place of the last one, or that
place is below it. -/
def blocking (disk : Disk) (path : Path) : Refusal :=
  if disk.tree.sight? (disk.place path) = none then .notADirectory else .alreadyThere

theorem isNotFound_blocking (disk : Disk) (path : Path) :
    isNotFound (.refused (disk.blocking path) path) = false := by
  unfold blocking
  split <;> rfl

theorem Blocked.sight?_eq_none_iff (h : disk.Blocked path) :
    disk.tree.sight? (disk.place path) = none ↔ ¬ disk.tree.FileAt (disk.place path) := by
  obtain ⟨above, habove, hfile⟩ := h
  constructor
  · intro hnone hhere
    exact hhere.ne_none hnone
  · intro hnot
    rcases disk.tree.sight?_cases (disk.place path) with hnone | hdirectory | hhere
    · exact hnone
    · exact absurd (Tree.sight?_of_prefix_directory hdirectory habove) hfile.ne_directory
    · exact absurd hhere hnot

/-- A file on the way to a plain path is below where the path starts. -/
theorem exists_front_of_prefix (hdown : ".." ∉ path.parts) (hcurrent : disk.HasCurrent)
    (habove : location <+: disk.place path) (hfile : disk.tree.FileAt location) :
    ∃ front back, path.parts = front ++ back ∧ front ≠ [] ∧ location = disk.start path ++ front := by
  have hstart := sight?_start hcurrent path
  rw [place, Path.walkUpAndDown_eq_append hdown] at habove
  rcases List.prefix_or_prefix_of_prefix habove (List.prefix_append (disk.start path) path.parts) with
    hup | ⟨front, rfl⟩
  · exact absurd (Tree.sight?_of_prefix_directory hstart hup) hfile.ne_directory
  · obtain ⟨back, hback⟩ := (List.prefix_append_right_inj _).1 habove
    refine ⟨front, back, hback.symm, ?_, rfl⟩
    rintro rfl
    rw [List.append_nil] at hfile
    exact hfile.ne_directory hstart

/-- A plain path on whose way a file is, and nothing at its place, leads through that file. -/
theorem locate_blocked (h : IsPlain path) (hcurrent : disk.HasCurrent) (hblocked : disk.Blocked path)
    (hnone : disk.tree.sight? (disk.place path) = none) :
    disk.locate path = .error (.refused .notADirectory path) := by
  obtain ⟨above, habove, hfile⟩ := hblocked
  obtain ⟨front, back, hparts, hfront, rfl⟩ := exists_front_of_prefix h.down hcurrent habove hfile
  have hback : back ≠ [] := by
    rintro rfl
    rw [h.place_eq, hparts, List.append_nil] at hnone
    exact hfile.ne_none hnone
  obtain ⟨content, mode, hsight⟩ := hfile
  have hfollow : follow disk.tree (disk.start path) path.parts = .error .notADirectory := by
    rw [hparts]
    refine follow_of_file (fun hmem => h.down ?_) hfront hback hsight
    rw [hparts]
    exact List.mem_append_left back hmem
  rw [locate, if_neg (by rw [h.noNull]; simp), hfollow]
  rfl

theorem Blocked.parts_ne_nil (h : IsPlain path) (hcurrent : disk.HasCurrent) (hblocked : disk.Blocked path) :
    path.parts ≠ [] := by
  obtain ⟨above, habove, hfile⟩ := hblocked
  obtain ⟨front, back, hparts, hfront, -⟩ := exists_front_of_prefix h.down hcurrent habove hfile
  rw [hparts]
  exact List.append_ne_nil_of_left_ne_nil hfront back

/-- A file in the place of a directory is in the way of it, and so is a file above that place. -/
theorem makeDirectory_blocked (h : IsPlain path) (hcurrent : disk.HasCurrent)
    (hblocked : disk.Blocked path) :
    disk.makeDirectory path = .error (.refused (disk.blocking path) path) ∧
      disk.isDirectory path = false ∧ path.parts ≠ [] := by
  have hne := hblocked.parts_ne_nil h hcurrent
  by_cases hnone : disk.tree.sight? (disk.place path) = none
  · have hlocate := locate_blocked h hcurrent hblocked hnone
    refine ⟨?_, ?_, hne⟩
    · rw [blocking, if_pos hnone]
      simp only [makeDirectory, hlocate]
    · simp only [isDirectory, find?, hlocate, Option.any_none]
  · have hlocate := h.locate_of_sight hcurrent hnone
    obtain ⟨content, mode, hsight⟩ := not_not.1 (mt hblocked.sight?_eq_none_iff.2 hnone)
    have hfound := Tree.sight?_eq_file_iff.1 hsight
    refine ⟨?_, ?_, hne⟩
    · rw [blocking, if_neg hnone]
      simp only [makeDirectory, hlocate, hfound]
    · simp only [isDirectory, find?, hlocate, hfound]
      rfl

/-- Where a file is on the way, nothing is made. -/
theorem makeDirectories_blocked (h : IsPlain path) (hcurrent : disk.HasCurrent)
    (hblocked : disk.Blocked path) :
    disk.makeDirectories path = (disk, some (.refused (disk.blocking path) path)) := by
  obtain ⟨hmake, hdirectory, hne⟩ := makeDirectory_blocked h hcurrent hblocked
  exact makeDirectories_of_error hne hmake (isNotFound_blocking disk path) hdirectory

/-- Where no file is on the way, the directories are there afterwards, and nothing else is new. -/
theorem makeDirectories_open (h : IsPlain path) (hcurrent : disk.HasCurrent)
    (hopen : ¬ disk.Blocked path) :
    (disk.makeDirectories path).2 = none ∧
      ∀ location, (disk.makeDirectories path).1.tree.sight? location =
        if location <+: disk.place path then some .directory else disk.tree.sight? location := by
  have hmade : (disk.makeDirectories path).2 = none := by
    refine makeDirectories_succeeds hcurrent h.noNull fun front hfront content mode hfile => ?_
    refine hopen ⟨_, ?_, content, mode, hfile⟩
    have hdown : ".." ∉ front := fun hmem => h.down (hfront.subset hmem)
    rw [h.place_eq, Path.walkUpAndDown_eq_append hdown]
    exact (List.prefix_append_right_inj _).2 hfront
  refine ⟨hmade, fun location => ?_⟩
  have hgrows := makeDirectories_grows hcurrent path
  by_cases habove : location <+: disk.place path
  · rw [if_pos habove]
    have hdirectory := (isDirectory_iff.1 (isDirectory_makeDirectories hcurrent hmade)).2.directory
    have hplace : walkUpAndDown ((disk.makeDirectories path).1.start path) path.parts = disk.place path := by
      rw [hgrows.keeps.start_eq]
      rfl
    rw [hplace] at hdirectory
    exact Tree.sight?_of_prefix_directory hdirectory habove
  · rw [if_neg habove]
    rcases hgrows.sight location with hsame | ⟨-, -, front, -, hfront, rfl⟩
    · exact hsame
    · refine absurd ?_ habove
      have hdown : ".." ∉ front := fun hmem => h.down (hfront.subset hmem)
      rw [h.place_eq, Path.walkUpAndDown_eq_append hdown]
      exact (List.prefix_append_right_inj _).2 hfront

/-- The files on the way to a path are the same on both disks, and no directory of the first is gone. -/
structure SameWay (start disk : Disk) (path : Path) : Prop where
  keeps : KeepsDirectories start disk
  files : ∀ above, above <+: start.place path → (disk.tree.FileAt above ↔ start.tree.FileAt above)

theorem SameWay.blocked_iff (h : SameWay start disk path) : disk.Blocked path ↔ start.Blocked path := by
  unfold Blocked
  rw [h.keeps.place_eq]
  refine exists_congr fun above => and_congr_right fun habove => h.files above habove

/-- What is refused on one disk is refused on the other, and what is made on one is made on the other. -/
theorem makeDirectories_congr (hdown : ".." ∉ path.parts) (hcurrent : start.HasCurrent)
    (h : SameWay start disk path) :
    (disk.makeDirectories path).2 = (start.makeDirectories path).2 ∧
      ∀ location, (disk.makeDirectories path).1.tree.sight? location =
        if (start.makeDirectories path).1.tree.sight? location = some .directory then some .directory
        else disk.tree.sight? location := by
  have hthere := h.keeps.hasCurrent hcurrent
  have hkept (location : Location) : disk.tree.sight? location =
      if start.tree.sight? location = some .directory then some .directory
      else disk.tree.sight? location := by
    split
    · exact h.keeps.directory location ‹_›
    · rfl
  by_cases hnull : hasNull path = true
  · rw [makeDirectories_null hnull, makeDirectories_null hnull]
    exact ⟨rfl, hkept⟩
  rw [Bool.not_eq_true] at hnull
  have hplain : IsPlain path := ⟨hdown, hnull⟩
  by_cases hblocked : start.Blocked path
  · rw [makeDirectories_blocked hplain hcurrent hblocked,
      makeDirectories_blocked hplain hthere (h.blocked_iff.2 hblocked)]
    refine ⟨?_, hkept⟩
    have hcause : disk.tree.sight? (disk.place path) = none ↔ start.tree.sight? (start.place path) = none := by
      rw [(h.blocked_iff.2 hblocked).sight?_eq_none_iff, hblocked.sight?_eq_none_iff, h.keeps.place_eq,
        h.files _ (List.prefix_refl _)]
    simp only [blocking, hcause]
  · obtain ⟨hmade, hsight⟩ := makeDirectories_open hplain hcurrent hblocked
    obtain ⟨hmadeHere, hsightHere⟩ := makeDirectories_open hplain hthere
      fun hnow => hblocked (h.blocked_iff.1 hnow)
    refine ⟨hmadeHere.trans hmade.symm, fun location => ?_⟩
    rw [hsight, hsightHere, h.keeps.place_eq]
    split
    · rfl
    · exact hkept location

/-! ### Reading -/

theorem IsPlain.read_of_directory (h : IsPlain path) (hcurrent : disk.HasCurrent)
    (hsight : disk.tree.sight? (disk.place path) = some .directory) :
    disk.read path = .error (.refused .isADirectory path) := by
  obtain ⟨inside, hinside⟩ := Tree.sight?_eq_directory_iff.1 hsight
  simp only [Disk.read, h.locate_of_sight hcurrent (by rw [hsight]; simp), hinside]

/-- Where nothing is seen, reading is refused by a file on the way, or finds nothing. -/
theorem IsPlain.read_of_none (h : IsPlain path) (hcurrent : disk.HasCurrent)
    (hsight : disk.tree.sight? (disk.place path) = none) :
    (disk.Blocked path → disk.read path = .error (.refused .notADirectory path)) ∧
      (¬ disk.Blocked path → disk.read path = .error (.refused .notFound path)) := by
  refine ⟨fun hblocked => ?_, fun hopen => ?_⟩
  · simp only [Disk.read, locate_blocked h hcurrent hblocked hsight]
  · cases hlocate : disk.locate path with
    | ok location =>
      have hnone := Tree.sight?_eq_none_iff.1 (locate_eq_place hlocate ▸ hsight)
      simp only [Disk.read, hlocate, hnone]
    | error error =>
      have hmissing := locate_error_eq_notFound h.noNull (fun front back hparts _ content mode hfile => ?_) hlocate
      · simp only [Disk.read, hlocate, hmissing]
      · have hdown : ".." ∉ front := fun hmem => h.down (hparts ▸ List.mem_append_left back hmem)
        rw [Path.walkUpAndDown_eq_append hdown] at hfile
        refine hopen ⟨_, ?_, content, mode, hfile⟩
        rw [h.place_eq, hparts]
        exact (List.prefix_append_right_inj _).2 (List.prefix_append front back)

/-- What is read on one disk is read on the other, and what is refused is refused, if the place of the path shows
the same on both. -/
theorem SameWay.read_eq (hdown : ".." ∉ path.parts) (hcurrent : start.HasCurrent) (h : SameWay start disk path)
    (hsight : disk.tree.sight? (start.place path) = start.tree.sight? (start.place path)) :
    disk.read path = start.read path := by
  have hthere := h.keeps.hasCurrent hcurrent
  by_cases hnull : hasNull path = true
  · simp only [Disk.read, locate, if_pos hnull]
  rw [Bool.not_eq_true] at hnull
  have hplain : IsPlain path := ⟨hdown, hnull⟩
  have hhere : disk.tree.sight? (disk.place path) = start.tree.sight? (start.place path) := by
    rw [h.keeps.place_eq, hsight]
  rcases hstart : start.tree.sight? (start.place path) with _ | ⟨content, mode⟩ | _
  · by_cases hblocked : start.Blocked path
    · rw [(hplain.read_of_none hcurrent hstart).1 hblocked,
        (hplain.read_of_none hthere (hhere.trans hstart)).1 (h.blocked_iff.2 hblocked)]
    · rw [(hplain.read_of_none hcurrent hstart).2 hblocked,
        (hplain.read_of_none hthere (hhere.trans hstart)).2 (mt h.blocked_iff.1 hblocked)]
  · rw [(hplain.read_eq_ok_iff hcurrent).2 ⟨mode, hstart⟩,
      (hplain.read_eq_ok_iff hthere).2 ⟨mode, hhere.trans hstart⟩]
  · rw [hplain.read_of_directory hcurrent hstart, hplain.read_of_directory hthere (hhere.trans hstart)]

end FfiBindings.Disk
