import FfiBindings.Proofs.Tree.Making

/-!
Plain paths, which go down only: their place is their spelling, what is seen there can be reached
(`IsPlain.locate_of_sight`), and they are read exactly where a file is seen (`IsPlain.read_eq_ok_iff`).
Where nothing is found at such a path, no file is in the way (`IsPlain.isOpen_of_notFound`), so the
directories above it can be made (`IsPlain.makeDirectories_parent`), and they can be made nowhere else
(`IsPlain.isOpen_of_made`). A file is written wherever no directory is, and keeps the permission bits it has
(`write_spec`).
-/

set_option autoImplicit false
set_option relaxedAutoImplicit false

namespace FfiBindings.Disk

open Path (walkUpAndDown)

variable {tree : Tree} {disk : Disk} {path : Path} {location : Location} {parts : List String}

/-! ### Plain paths -/

/-- A path that goes down only, and that a disk can have. -/
structure IsPlain (path : Path) : Prop where
  down : ".." ∉ path.parts
  noNull : hasNull path = false

theorem IsPlain.of_prefix {other : Path} (h : IsPlain path) (hshort : other.parts <+: path.parts) :
    IsPlain other := by
  refine ⟨fun hmem => h.down (hshort.subset hmem), ?_⟩
  have hnull := h.noNull
  rw [hasNull, List.any_eq_false] at hnull ⊢
  exact fun part hpart => hnull part (hshort.subset hpart)

theorem leadsTo_of_sight (hdown : ".." ∉ parts)
    (h : tree.sight? (location ++ parts) = some .directory) : LeadsTo tree location parts := by
  induction parts generalizing location with
  | nil => exact leadsTo_nil.2 (by rwa [List.append_nil] at h)
  | cons part parts ih =>
    have hpart : part ≠ ".." := fun heq => hdown (by simp [heq])
    have hstep : stepTo location part = location ++ [part] := by
      rw [stepTo, if_neg hpart]
    have hrest : tree.sight? (stepTo location part ++ parts) = some .directory := by
      rwa [hstep, List.append_assoc, List.singleton_append]
    cases parts with
    | nil => exact ⟨rfl, by rwa [List.append_nil] at hrest⟩
    | cons following parts =>
      refine leadsTo_cons_cons.2 ⟨?_, ih (fun hmem => hdown (List.mem_cons_of_mem part hmem)) hrest⟩
      exact Tree.sight?_above (List.cons_ne_nil following parts) (by rw [hrest]; simp)

theorem follow_of_file {front back : List String} (hdown : ".." ∉ front) (hfront : front ≠ [])
    (hback : back ≠ []) {content : ByteArray} {mode : Nat}
    (h : tree.sight? (location ++ front) = some (.file content mode)) :
    follow tree location (front ++ back) = .error .notADirectory := by
  induction front generalizing location with
  | nil => exact absurd rfl hfront
  | cons part front ih =>
    have hpart : part ≠ ".." := fun heq => hdown (by simp [heq])
    have hstep : stepTo location part = location ++ [part] := by
      rw [stepTo, if_neg hpart]
    have hrest : tree.sight? (stepTo location part ++ front) = some (.file content mode) := by
      rwa [hstep, List.append_assoc, List.singleton_append]
    obtain ⟨following, rest, hmore⟩ : ∃ following rest, front ++ back = following :: rest :=
      List.exists_cons_of_ne_nil (by simp [hback])
    rw [List.cons_append, hmore, follow_cons_cons, ← hmore]
    by_cases hempty : front = []
    · subst hempty
      rw [List.append_nil] at hrest
      rw [hrest]
    · rw [Tree.sight?_above hempty (by rw [hrest]; simp)]
      exact ih (fun hmem => hdown (List.mem_cons_of_mem part hmem)) hempty hrest

namespace IsPlain

theorem place_eq (h : IsPlain path) (disk : Disk) : disk.place path = disk.start path ++ path.parts :=
  Path.walkUpAndDown_eq_append h.down _

/-- What is seen at the place of a plain path can be reached. -/
theorem locate_of_sight (h : IsPlain path) (hcurrent : disk.HasCurrent)
    (hsight : disk.tree.sight? (disk.place path) ≠ none) : disk.locate path = .ok (disk.place path) := by
  refine locate_eq_ok_iff.2 ⟨h.noNull, ?_⟩
  rw [h.place_eq] at hsight
  rcases List.eq_nil_or_concat path.parts with hparts | ⟨parts, last, hparts⟩
  · rw [place, hparts]
    rfl
  · rw [List.concat_eq_append] at hparts
    rw [place, hparts]
    refine (follow_concat_iff (sight?_start hcurrent path)).2 ⟨leadsTo_of_sight ?_ ?_, rfl⟩
    · intro hmem
      exact h.down (by rw [hparts]; exact List.mem_append_left _ hmem)
    · rw [hparts, ← List.append_assoc] at hsight
      exact Tree.sight?_above (by simp) hsight

theorem find?_of_sight (h : IsPlain path) (hcurrent : disk.HasCurrent) {content : ByteArray} {mode : Nat}
    (hsight : disk.tree.sight? (disk.place path) = some (.file content mode)) :
    disk.find? path = some (.file content mode) := by
  rw [find?, h.locate_of_sight hcurrent (by rw [hsight]; simp)]
  exact Tree.sight?_eq_file_iff.1 hsight

/-- Where a plain path leads nowhere, nothing is seen at its place. -/
theorem sight?_of_find?_eq_none (h : IsPlain path) (hcurrent : disk.HasCurrent)
    (hmissing : disk.find? path = none) : disk.tree.sight? (disk.place path) = none := by
  by_contra hsome
  rw [find?, h.locate_of_sight hcurrent hsome] at hmissing
  exact hsome (Tree.sight?_eq_none_iff.2 hmissing)

/-- A plain path is read exactly where a file is seen at its place. -/
theorem read_eq_ok_iff (h : IsPlain path) (hcurrent : disk.HasCurrent) {content : ByteArray} :
    disk.read path = .ok content ↔
      ∃ mode, disk.tree.sight? (disk.place path) = some (.file content mode) := by
  rw [Disk.read_eq_ok_iff]
  exact exists_congr fun mode => ⟨sight?_of_find?, h.find?_of_sight hcurrent⟩

end IsPlain

/-- No file is where a directory above the place of the path has to be. -/
def IsOpen (disk : Disk) (path : Path) : Prop :=
  ∀ above, above <+: disk.place path → above ≠ disk.place path →
    ∀ content mode, disk.tree.sight? above ≠ some (.file content mode)

/-- Where a plain path finds nothing, nothing is in the way of a file there. -/
theorem IsPlain.isOpen_of_notFound (h : IsPlain path) (hcurrent : disk.HasCurrent)
    (hread : disk.read path = .error (.refused .notFound path)) :
    disk.tree.sight? (disk.place path) = none ∧ disk.IsOpen path := by
  have hstart := sight?_start hcurrent path
  constructor
  · exact h.sight?_of_find?_eq_none hcurrent (find?_eq_none_of_read hread).2
  · intro above habove hne content mode hfile
    rw [h.place_eq] at habove hne
    rcases List.prefix_or_prefix_of_prefix habove (List.prefix_append (disk.start path) path.parts) with
      hup | ⟨front, rfl⟩
    · rw [Tree.sight?_of_prefix_directory hstart hup] at hfile
      exact absurd hfile (by simp)
    · obtain ⟨back, hback⟩ := (List.prefix_append_right_inj _).1 habove
      have hfront : front ≠ [] := by
        rintro rfl
        rw [List.append_nil, hstart] at hfile
        exact absurd hfile (by simp)
      have hrest : back ≠ [] := by
        rintro rfl
        exact hne (by rw [← hback, List.append_nil])
      have hdown : ".." ∉ front := fun hmem => h.down (hback ▸ List.mem_append_left back hmem)
      have hfollow := follow_of_file hdown hfront hrest hfile
      rw [hback] at hfollow
      simp only [Disk.read, locate, h.noNull, Bool.false_eq_true, if_false, hfollow, Except.mapError] at hread
      exact absurd hread (by simp)

theorem IsPlain.sight?_above_open (h : IsPlain path) (hopen : disk.IsOpen path) {front : List String}
    (hfront : front <+: path.parent.parts) (hparts : path.parts ≠ []) (content : ByteArray) (mode : Nat) :
    disk.tree.sight? (walkUpAndDown (disk.start path) front) ≠ some (.file content mode) := by
  have habove : front <+: path.parts := hfront.trans (List.dropLast_prefix path.parts)
  rw [Path.walkUpAndDown_eq_append fun hmem => h.down (habove.subset hmem)]
  refine hopen _ ?_ ?_ content mode
  · rw [h.place_eq]
    exact (List.prefix_append_right_inj _).2 habove
  · rw [h.place_eq]
    intro heq
    have hlength := congrArg List.length (List.append_cancel_left heq)
    have hshort := hfront.length_le
    have hpositive := List.length_pos_iff.2 hparts
    rw [Path.parent, List.length_dropLast] at hshort
    omega

/-- The directories above an open place can be made. -/
theorem IsPlain.makeDirectories_parent (h : IsPlain path) (hcurrent : disk.HasCurrent)
    (hparts : path.parts ≠ []) (hopen : disk.IsOpen path) :
    (disk.makeDirectories path.parent).2 = none :=
  makeDirectories_succeeds hcurrent (hasNull_parent h.noNull) fun _ hfront =>
    h.sight?_above_open hopen hfront hparts

/-- The place of a path is below what is on the way to it. -/
theorem IsPlain.place_notOnTheWay (h : IsPlain path) (hparts : path.parts ≠ []) :
    ¬ OnTheWay (disk.start path.parent) path.parent.parts (disk.place path) := by
  rintro ⟨front, -, habove, heq⟩
  have hinit : front <+: path.parts := habove.trans (List.dropLast_prefix path.parts)
  have hlength := congrArg List.length heq
  have hshort := habove.length_le
  have hpositive := List.length_pos_iff.2 hparts
  rw [h.place_eq, Path.walkUpAndDown_eq_append fun hmem => h.down (hinit.subset hmem),
    List.length_append, List.length_append] at hlength
  have hstart : (disk.start path.parent).length = (disk.start path).length := rfl
  rw [Path.parent, List.length_dropLast] at hshort
  omega

/-- What is on the way to a place is above it. -/
theorem IsPlain.prefix_of_onTheWay (h : IsPlain path) {other : Location}
    (hother : OnTheWay (disk.start path.parent) path.parent.parts other) : other <+: disk.place path := by
  obtain ⟨front, -, habove, rfl⟩ := hother
  have hinit : front <+: path.parts := habove.trans (List.dropLast_prefix path.parts)
  rw [h.place_eq, Path.walkUpAndDown_eq_append fun hmem => h.down (hinit.subset hmem)]
  exact (List.prefix_append_right_inj _).2 hinit

/-- Where the directories above a place can be made, it is open. -/
theorem IsPlain.isOpen_of_made (h : IsPlain path) (hcurrent : disk.HasCurrent)
    (hmade : (disk.makeDirectories path.parent).2 = none) : disk.IsOpen path := by
  intro above habove hne content mode hfile
  have hgrows := makeDirectories_grows hcurrent path.parent
  have hparent := (isDirectory_iff.1 (isDirectory_makeDirectories hcurrent hmade)).2.directory
  have hplace : walkUpAndDown ((disk.makeDirectories path.parent).1.start path.parent) path.parent.parts =
      disk.start path ++ path.parts.dropLast := by
    rw [hgrows.keeps.start_eq, Path.walkUpAndDown_eq_append]
    · rfl
    · exact fun hmem => h.down (List.dropLast_subset path.parts hmem)
  have hup : above <+: disk.start path ++ path.parts.dropLast := by
    rw [h.place_eq] at habove hne
    rcases List.eq_nil_or_concat path.parts with hparts | ⟨parts, last, hparts⟩
    · rw [hparts] at habove ⊢
      exact habove
    · rw [hparts, List.concat_eq_append] at habove hne ⊢
      rw [List.dropLast_concat]
      rw [← List.append_assoc] at habove hne
      exact (List.prefix_concat_iff.1 habove).resolve_left hne
  rw [hplace] at hparent
  have hthere := Tree.sight?_of_prefix_directory hparent hup
  rw [hgrows.sight?_eq_some hfile] at hthere
  exact absurd hthere (by simp)

/-- A place stays open when the only files that come above it are in the place of others. -/
theorem IsOpen.of_changes {files through : Location → Prop} {after : Disk} (hopen : disk.IsOpen path)
    (h : Changes files through disk after)
    (hfiles : ∀ above, above <+: disk.place path → above ≠ disk.place path → files above →
      ∃ content mode, disk.tree.sight? above = some (.file content mode)) : after.IsOpen path := by
  intro above habove hne content mode hfile
  rw [h.keeps.place_eq] at habove hne
  rcases h.sight above with hsame | ⟨-, hnew, -⟩ | ⟨hhere, -, -⟩
  · exact hopen above habove hne content mode (hsame ▸ hfile)
  · rw [hnew] at hfile
    exact absurd hfile (by simp)
  · obtain ⟨content, mode, hbefore⟩ := hfiles above habove hne hhere
    exact hopen above habove hne content mode hbefore

/-! ### Files that stay -/

theorem isFile_iff :
    disk.isFile path = true ↔ ∃ content mode, disk.find? path = some (.file content mode) := by
  unfold isFile
  rcases disk.find? path with _ | ⟨content, mode⟩ | inside <;> simp [Entry.isDirectory]

/-- The path leads to the same file on both disks, or to none on both. -/
def SameFile (path : Path) (disk after : Disk) : Prop :=
  ∀ content mode, after.find? path = some (.file content mode) ↔ disk.find? path = some (.file content mode)

theorem SameFile.symm {after : Disk} (h : SameFile path disk after) : SameFile path after disk :=
  fun content mode => (h content mode).symm

theorem SameFile.trans {middle after : Disk} (hfirst : SameFile path disk middle)
    (hsecond : SameFile path middle after) : SameFile path disk after :=
  fun content mode => (hsecond content mode).trans (hfirst content mode)

theorem SameFile.read_eq_ok_iff {after : Disk} (h : SameFile path disk after) (content : ByteArray) :
    after.read path = .ok content ↔ disk.read path = .ok content := by
  rw [Disk.read_eq_ok_iff, Disk.read_eq_ok_iff]
  exact exists_congr (h content)

theorem SameFile.isFile_eq {after : Disk} (h : SameFile path disk after) :
    after.isFile path = disk.isFile path := by
  rw [Bool.eq_iff_iff, isFile_iff, isFile_iff]
  exact exists_congr fun content => exists_congr (h content)

/-- A path that goes down only leads to the same file when none comes to its place. -/
theorem Changes.sameFile {files through : Location → Prop} {after : Disk}
    (h : Changes files through disk after) (hcurrent : disk.HasCurrent) (hdown : ".." ∉ path.parts)
    (hfile : ¬ files (disk.place path)) : SameFile path disk after := by
  intro content mode
  refine ⟨fun hafter => ?_, h.find?_eq_file hfile⟩
  have hplain : IsPlain path := ⟨hdown, noNull_of_find? hafter⟩
  have hthere := sight?_of_find? hafter
  rw [h.keeps.place_eq, h.sight?_eq_file_iff hfile] at hthere
  exact hplain.find?_of_sight hcurrent hthere

/-- So does a path that leads somewhere already. -/
theorem Changes.sameFile_of_locate {files through : Location → Prop} {after : Disk}
    (h : Changes files through disk after) (hlocate : disk.locate path = .ok location)
    (hfile : ¬ files (disk.place path)) : SameFile path disk after := by
  intro content mode
  rw [← locate_eq_place hlocate] at hfile
  rw [find?, find?, h.keeps.locate_eq_ok hlocate, hlocate]
  exact Tree.sight?_eq_file_iff.symm.trans ((h.sight?_eq_file_iff hfile).trans Tree.sight?_eq_file_iff)

/-! ### Writing -/

/-- What is seen of a file once it is written, where the other was seen: it keeps its permission bits. -/
def overwritten (disk : Disk) (content : ByteArray) : Option Sight → Sight
  | some (.file _ mode) => .file content mode
  | _ => .file content disk.newFileMode

/-- A file is written where no directory is. -/
theorem write_spec (hcurrent : disk.HasCurrent) (hlocate : disk.locate path = .ok location)
    (content : ByteArray) :
    (disk.tree.sight? location = some .directory ∧
        disk.write path content = .error (.refused .isADirectory path)) ∨
      (disk.tree.sight? location ≠ some .directory ∧ ∃ after, disk.write path content = .ok after ∧
        ShowsAt disk after location (some (disk.overwritten content (disk.tree.sight? location)))) := by
  by_cases hplace : disk.tree.sight? location = some .directory
  · refine .inl ⟨hplace, ?_⟩
    obtain ⟨inside, hinside⟩ := Tree.sight?_eq_directory_iff.1 hplace
    simp only [write, hlocate, hinside]
  · refine .inr ⟨hplace, ?_⟩
    obtain ⟨hne, hparent⟩ := sight?_dropLast_of_locate hcurrent hlocate hplace
    have hput (mode : Nat) : ShowsAt disk (disk.putAt location (.file content mode)) location
        (some (.file content mode)) :=
      ⟨rfl, rfl, Tree.sight?_putAt_leaf (Tree.isLeaf_file content mode) hne hparent hplace⟩
    rcases hsight : disk.tree.sight? location with _ | ⟨old, mode⟩ | _
    · have hfound := Tree.sight?_eq_none_iff.1 hsight
      exact ⟨_, by simp only [write, hlocate, hfound], hput disk.newFileMode⟩
    · have hfound := Tree.sight?_eq_file_iff.1 hsight
      exact ⟨_, by simp only [write, hlocate, hfound], hput mode⟩
    · exact absurd hsight hplace

theorem overwritten_eq (disk : Disk) (content : ByteArray) (sight : Option Sight) :
    ∃ mode, disk.overwritten content sight = .file content mode := by
  rcases sight with _ | ⟨old, mode⟩ | _
  · exact ⟨_, rfl⟩
  · exact ⟨mode, rfl⟩
  · exact ⟨_, rfl⟩

theorem write_showsAt (hcurrent : disk.HasCurrent) (hlocate : disk.locate path = .ok location)
    (hplace : disk.tree.sight? location ≠ some .directory) (content : ByteArray) :
    ∃ after mode, disk.write path content = .ok after ∧
      ShowsAt disk after location (some (.file content mode)) := by
  obtain ⟨hthere, -⟩ | ⟨-, after, hwritten, hshows⟩ := write_spec hcurrent hlocate content
  · exact absurd hthere hplace
  · obtain ⟨mode, hmode⟩ := disk.overwritten_eq content (disk.tree.sight? location)
    rw [hmode] at hshows
    exact ⟨after, mode, hwritten, hshows⟩

end FfiBindings.Disk
