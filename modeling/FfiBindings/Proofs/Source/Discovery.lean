import FfiBindings.Proofs.Path
import FfiBindings.Proofs.Source.Module
import FfiBindings.Proofs.Tree.Proper
import Mathlib.Data.List.Nodup

/-!
Discovery told by what is seen on a disk. On a proper tree a walk finds every file that it may go to, once
(`mem_walk_iff`, `nodup_walk`), and a scan lists what the walk finds in the order of the paths. So the
modules of a scan are files on the disk (`scan_fileAt`), and two disks that show files with a source suffix
at the same locations have the same modules (`scan_eq`), in whatever order their directories list them.
-/

set_option autoImplicit false
set_option relaxedAutoImplicit false

namespace FfiBindings

open Path (walkUpAndDown)

namespace Selection

variable {selection : Selection} {tree : Tree} {root : Path} {above directory : List String}
  {name : String} {location : Location}

/-- Whether a walk that stands in the directory goes down the location and takes the file at its end. -/
def finds (selection : Selection) (root : Path) : (above : List String) → Location → Bool
  | _, [] => false
  | above, [name] => selection.takes (root.join ⟨.current, above⟩) name
  | above, part :: below =>
    selection.enters (root.join ⟨.current, above⟩) part && selection.finds root (above ++ [part]) below

theorem finds_cons (selection : Selection) (root : Path) (above : List String) (part : String)
    {below : Location} (hbelow : below ≠ []) :
    selection.finds root above (part :: below) =
      (selection.enters (root.join ⟨.current, above⟩) part &&
        selection.finds root (above ++ [part]) below) := by
  rw [finds]
  exact fun hnil => hbelow hnil

theorem ne_nil_of_finds (h : selection.finds root above location = true) : location ≠ [] := by
  rintro rfl
  exact absurd h (by simp [finds])

/-- What is found has a source suffix. -/
theorem hasSuffix_of_finds (h : selection.finds root above location = true) :
    ∃ directory name, location = directory ++ [name] ∧ selection.hasSuffix name = true := by
  induction location generalizing above with
  | nil => exact absurd rfl (ne_nil_of_finds h)
  | cons part below ih =>
    by_cases hbelow : below = []
    · subst hbelow
      rw [finds, takes, Bool.and_eq_true] at h
      exact ⟨[], part, rfl, h.1⟩
    · rw [finds_cons _ _ _ _ hbelow, Bool.and_eq_true] at h
      obtain ⟨directory, name, rfl, hsuffix⟩ := ih h.2
      exact ⟨part :: directory, name, rfl, hsuffix⟩

theorem mem_walk_file {content : ByteArray} {mode : Nat} {other : String} :
    (directory, name) ∈ selection.walk root above (.file other content mode tree) ↔
      ((directory, name) = (above, other) ∧ selection.takes (root.join ⟨.current, above⟩) other = true) ∨
        (directory, name) ∈ selection.walk root above tree := by
  rw [walk]
  split
  · rename_i htakes
    rw [List.mem_cons]
    simp [htakes]
  · rename_i htakes
    simp [htakes]

theorem mem_walk_directory {inside : Tree} {other : String} :
    (directory, name) ∈ selection.walk root above (.directory other inside tree) ↔
      (selection.enters (root.join ⟨.current, above⟩) other = true ∧
          (directory, name) ∈ selection.walk root (above ++ [other]) inside) ∨
        (directory, name) ∈ selection.walk root above tree := by
  rw [walk]
  split
  · rename_i henters
    rw [List.mem_append]
    simp [henters]
  · rename_i henters
    simp [henters]

/-- A walk finds the files that it may go to. -/
theorem mem_walk_iff (hdistinct : tree.isDistinct = true) :
    (directory, name) ∈ selection.walk root above tree ↔
      ∃ location, above ++ location = directory ++ [name] ∧
        selection.finds root above location = true ∧ tree.FileAt location := by
  induction tree generalizing above with
  | empty =>
    refine ⟨fun h => absurd h (by simp [walk]), ?_⟩
    rintro ⟨location, -, hfinds, hfile⟩
    cases location with
    | nil => exact absurd rfl (ne_nil_of_finds hfinds)
    | cons part below => exact absurd hfile.mem_names (by simp [Tree.names])
  | file other content mode rest ih =>
    obtain ⟨hfree, hrest⟩ := Tree.isDistinct_file.1 hdistinct
    rw [mem_walk_file, ih hrest]
    constructor
    · rintro (⟨heq, htakes⟩ | ⟨location, hspelled, hfinds, hfile⟩)
      · obtain ⟨rfl, rfl⟩ := Prod.mk.inj heq
        exact ⟨[name], rfl, htakes, Tree.fileAt_file_iff.2 (.inl ⟨rfl, rfl⟩)⟩
      · obtain ⟨part, below, rfl⟩ := List.exists_cons_of_ne_nil (ne_nil_of_finds hfinds)
        have hne : part ≠ other := fun heq => hfree (heq ▸ hfile.mem_names)
        exact ⟨part :: below, hspelled, hfinds, Tree.fileAt_file_iff.2 (.inr ⟨hne, hfile⟩)⟩
    · rintro ⟨location, hspelled, hfinds, hfile⟩
      obtain ⟨part, below, rfl⟩ := List.exists_cons_of_ne_nil (ne_nil_of_finds hfinds)
      rcases Tree.fileAt_file_iff.1 hfile with ⟨rfl, rfl⟩ | ⟨-, hfile⟩
      · obtain ⟨rfl, rfl⟩ := List.append_singleton_inj.1 hspelled
        exact .inl ⟨rfl, hfinds⟩
      · exact .inr ⟨part :: below, hspelled, hfinds, hfile⟩
  | directory other inside rest ihinside ihrest =>
    obtain ⟨hfree, hinside, hrest⟩ := Tree.isDistinct_directory.1 hdistinct
    rw [mem_walk_directory, ihinside hinside, ihrest hrest]
    constructor
    · rintro (⟨henters, location, hspelled, hfinds, hfile⟩ | ⟨location, hspelled, hfinds, hfile⟩)
      · refine ⟨other :: location, ?_, ?_, Tree.fileAt_directory_iff.2 (.inl ⟨rfl, hfile⟩)⟩
        · rw [← hspelled, List.append_assoc, List.singleton_append]
        · rw [finds_cons _ _ _ _ (ne_nil_of_finds hfinds), henters, hfinds, Bool.and_self]
      · obtain ⟨part, below, rfl⟩ := List.exists_cons_of_ne_nil (ne_nil_of_finds hfinds)
        have hne : part ≠ other := fun heq => hfree (heq ▸ hfile.mem_names)
        exact ⟨part :: below, hspelled, hfinds, Tree.fileAt_directory_iff.2 (.inr ⟨hne, hfile⟩)⟩
    · rintro ⟨location, hspelled, hfinds, hfile⟩
      obtain ⟨part, below, rfl⟩ := List.exists_cons_of_ne_nil (ne_nil_of_finds hfinds)
      rcases Tree.fileAt_directory_iff.1 hfile with ⟨rfl, hinner⟩ | ⟨-, hfile⟩
      · have hbelow : below ≠ [] := by
          rintro rfl
          exact hinner.ne_directory (Tree.sight?_nil inside)
        rw [finds_cons _ _ _ _ hbelow, Bool.and_eq_true] at hfinds
        refine .inl ⟨hfinds.1, below, ?_, hfinds.2, hinner⟩
        rw [← hspelled, List.append_assoc, List.singleton_append]
      · exact .inr ⟨part :: below, hspelled, hfinds, hfile⟩

/-- Nothing is found twice. -/
theorem nodup_walk (selection : Selection) (root : Path) (above : List String)
    (hdistinct : tree.isDistinct = true) : (selection.walk root above tree).Nodup := by
  induction tree generalizing above with
  | empty => exact List.nodup_nil
  | file other content mode rest ih =>
    obtain ⟨hfree, hrest⟩ := Tree.isDistinct_file.1 hdistinct
    rw [walk]
    split
    · refine List.nodup_cons.2 ⟨fun hmem => ?_, ih above hrest⟩
      obtain ⟨location, hspelled, -, hfile⟩ := (mem_walk_iff hrest).1 hmem
      obtain rfl := List.append_cancel_left hspelled
      exact hfree hfile.mem_names
    · exact ih above hrest
  | directory other inside rest ihinside ihrest =>
    obtain ⟨hfree, hinside, hrest⟩ := Tree.isDistinct_directory.1 hdistinct
    rw [walk]
    split
    · refine List.nodup_append.2 ⟨ihinside _ hinside, ihrest above hrest, ?_⟩
      rintro ⟨directory, name⟩ hbelow _ hbeside rfl
      obtain ⟨location, hspelled, -, -⟩ := (mem_walk_iff hinside).1 hbelow
      obtain ⟨other, hagain, -, hfile⟩ := (mem_walk_iff hrest).1 hbeside
      rw [← hspelled, List.append_assoc] at hagain
      obtain rfl := List.append_cancel_left hagain
      exact hfree hfile.mem_names
    · exact ihrest above hrest

end Selection

/-! ### The modules of a scan -/

/-- The module at a location below the source root. -/
def moduleAt (sourceRoot : Path) (location : Location) : SourceModule :=
  ⟨sourceRoot.join ⟨.current, location⟩, location.dropLast⟩

variable {disk after : Disk} {selection : Selection} {root : Path} {sourceDirectory : String}
  {sources : List SourceModule} {source other : SourceModule}

theorem moduleAt_concat (sourceRoot : Path) (directory : List String) (name : String) :
    moduleAt sourceRoot (directory ++ [name]) =
      ⟨(sourceRoot.join ⟨.current, directory⟩).child name, directory⟩ := by
  rw [moduleAt, List.dropLast_concat, Path.join_parts_of_current, Path.join_parts_of_current, Path.child,
    List.append_assoc]

theorem moduleAt_injective (sourceRoot : Path) : Function.Injective (moduleAt sourceRoot) := by
  intro location other heq
  have hparts := congrArg (fun source : SourceModule => source.path.parts) heq
  exact List.append_cancel_left hparts

/-- The modules that a walk finds in a tree, by path. -/
def modulesIn (selection : Selection) (sourceRoot relative : Path) (tree : Tree) : List SourceModule :=
  ((selection.walk relative [] tree).map fun (directory, name) =>
    moduleAt sourceRoot (directory ++ [name])).mergeSort pathLe

theorem mem_modulesIn_iff {sourceRoot relative : Path} {tree : Tree} (hdistinct : tree.isDistinct = true) :
    source ∈ modulesIn selection sourceRoot relative tree ↔
      ∃ location, source = moduleAt sourceRoot location ∧
        selection.finds relative [] location = true ∧ tree.FileAt location := by
  rw [modulesIn, List.mem_mergeSort, List.mem_map]
  constructor
  · rintro ⟨⟨directory, name⟩, hwalk, rfl⟩
    obtain ⟨location, rfl, hfinds, hfile⟩ := (Selection.mem_walk_iff hdistinct).1 hwalk
    exact ⟨directory ++ [name], rfl, hfinds, hfile⟩
  · rintro ⟨location, rfl, hfinds, hfile⟩
    obtain ⟨directory, name, rfl, -⟩ := Selection.hasSuffix_of_finds hfinds
    exact ⟨(directory, name), (Selection.mem_walk_iff hdistinct).2 ⟨_, rfl, hfinds, hfile⟩, rfl⟩

theorem nodup_modulesIn (selection : Selection) (sourceRoot relative : Path) {tree : Tree}
    (hdistinct : tree.isDistinct = true) : (modulesIn selection sourceRoot relative tree).Nodup := by
  refine List.nodup_mergeSort.2 ((selection.nodup_walk relative [] hdistinct).map ?_)
  rintro ⟨directory, name⟩ ⟨further, last⟩ heq
  obtain ⟨rfl, rfl⟩ := List.append_singleton_inj.1 (moduleAt_injective sourceRoot heq)
  rfl

theorem pathLe_iff : pathLe source other = true ↔ source.path.toText ≤ other.path.toText := by
  rw [pathLe, Bool.not_eq_true', decide_eq_false_iff_not, String.not_lt]

theorem pairwise_mergeSort_pathLe (sources : List SourceModule) :
    (sources.mergeSort pathLe).Pairwise fun source other => pathLe source other = true := by
  refine List.pairwise_mergeSort ?_ ?_ sources
  · intro first second third hfirst hsecond
    rw [pathLe_iff] at hfirst hsecond ⊢
    exact String.le_trans hfirst hsecond
  · intro first second
    rw [Bool.or_eq_true, pathLe_iff, pathLe_iff]
    exact String.le_total _ _

/-- A scan lists what is found in its source directory, or nothing where there is none. -/
theorem scan_eq_ok_cases (h : scan disk selection root sourceDirectory = .ok sources) :
    disk.isDirectory (root.absolute disk.current) = true ∧
      ((disk.isDirectory ((root.absolute disk.current).joinText sourceDirectory) = false ∧ sources = []) ∨
        ∃ tree relative,
          disk.find? ((root.absolute disk.current).joinText sourceDirectory) = some (.directory tree) ∧
          ((root.absolute disk.current).joinText sourceDirectory).relativeTo
            (root.absolute disk.current) = .ok relative ∧
          sources = modulesIn selection ((root.absolute disk.current).joinText sourceDirectory) relative
            tree) := by
  rw [scan] at h
  simp only at h
  split at h
  · exact absurd h (by simp)
  · exact absurd h (by simp)
  · rename_i top htop
    refine ⟨by rw [Disk.isDirectory, htop]; rfl, ?_⟩
    split at h
    · rename_i tree hfound
      split at h
      · exact absurd h (by simp)
      · rename_i relative hrelative
        refine .inr ⟨tree, relative, hfound, hrelative, ?_⟩
        rw [← Except.ok.inj h, modulesIn]
        simp only [moduleAt_concat]
    · rename_i hmissing
      refine .inl ⟨?_, (Except.ok.inj h).symm⟩
      rw [Disk.isDirectory]
      rcases hfound : disk.find? ((root.absolute disk.current).joinText sourceDirectory) with
        _ | ⟨content, mode⟩ | inside
      · rfl
      · rfl
      · exact absurd hfound (hmissing inside)

theorem Disk.exists_of_isDirectory {path : Path} (h : disk.isDirectory path = true) :
    ∃ tree, disk.find? path = some (.directory tree) := by
  rw [Disk.isDirectory] at h
  rcases hfound : disk.find? path with _ | ⟨content, mode⟩ | inside
  · rw [hfound] at h
    exact absurd h (by simp)
  · rw [hfound] at h
    exact absurd h (by simp [Entry.isDirectory])
  · exact ⟨inside, rfl⟩

/-- A directory that is found is at the place that the path spells. -/
theorem Disk.find?_directory {path : Path} {tree : Tree} (h : disk.find? path = some (.directory tree)) :
    disk.tree.find? (disk.place path) = some (.directory tree) := by
  unfold Disk.find? at h
  split at h
  · rename_i location hlocate
    rw [← Disk.locate_eq_place hlocate]
    exact h
  · exact absurd h (by simp)

/-- A module is at a file below the source root. -/
theorem exists_moduleAt (hproper : disk.tree.isProper = true)
    (h : scan disk selection root sourceDirectory = .ok sources) (hsource : source ∈ sources) :
    ∃ location, source = moduleAt ((root.absolute disk.current).joinText sourceDirectory) location ∧
      location ≠ [] ∧ (∀ part ∈ location, isEntryName part = true) ∧
      disk.tree.FileAt (disk.place ((root.absolute disk.current).joinText sourceDirectory) ++ location) := by
  obtain ⟨-, ⟨-, rfl⟩ | ⟨tree, relative, hfound, -, rfl⟩⟩ := scan_eq_ok_cases h
  · exact absurd hsource List.not_mem_nil
  have hinside := Disk.find?_directory hfound
  have htree := (Tree.isEntryName_of_find? hproper hinside).2 tree rfl
  obtain ⟨location, rfl, hfinds, hfile⟩ :=
    (mem_modulesIn_iff (Tree.isDistinct_of_isProper htree)).1 hsource
  obtain ⟨content, mode, hsight⟩ := hfile
  refine ⟨location, rfl, Selection.ne_nil_of_finds hfinds, Tree.isEntryName_of_sight htree hsight,
    content, mode, ?_⟩
  rw [Tree.sight?_append hinside]
  exact hsight

/-- Every module of a scan is a file on the disk. -/
theorem scan_fileAt (hproper : disk.tree.isProper = true)
    (h : scan disk selection root sourceDirectory = .ok sources) (hsource : source ∈ sources) :
    disk.tree.FileAt (disk.place source.path) := by
  obtain ⟨location, rfl, -, hnames, hfile⟩ := exists_moduleAt hproper h hsource
  have hdown : ".." ∉ location := fun hmem =>
    ne_of_isFileName (isFileName_of_isEntryName (hnames _ hmem)) rfl
  have hplace (sourceRoot : Path) :
      disk.place (moduleAt sourceRoot location).path = disk.place sourceRoot ++ location := by
    rw [moduleAt, Path.join_parts_of_current, Disk.place, Path.walkUpAndDown_append,
      Path.walkUpAndDown_eq_append hdown]
    rfl
  rw [hplace]
  exact hfile

/-- Every module of a scan is found by its path. -/
theorem scan_find? (hproper : disk.tree.isProper = true) (hcurrent : disk.HasCurrent)
    (h : scan disk selection root sourceDirectory = .ok sources) (hsource : source ∈ sources) :
    ∃ content mode, disk.find? source.path = some (.file content mode) := by
  have hnamed := Tree.isNamed_of_isProper hproper
  obtain ⟨content, mode, hseen⟩ := scan_fileAt hproper h hsource
  obtain ⟨-, -, hdirectory, -⟩ := scan_mem hnamed h hsource
  have hnull := scan_path_noNull hnamed h hsource
  obtain ⟨location, rfl, hne, hnames, hfile⟩ := exists_moduleAt hproper h hsource
  obtain ⟨front, last, rfl⟩ := (List.eq_nil_or_concat location).resolve_left hne
  rw [List.concat_eq_append] at *
  generalize (root.absolute disk.current).joinText sourceDirectory = sourceRoot at *
  have hdown : ".." ∉ front := fun hmem =>
    ne_of_isFileName (isFileName_of_isEntryName (hnames _ (List.mem_append_left _ hmem))) rfl
  rw [← List.append_assoc] at hfile
  have hfront := Disk.leadsTo_of_sight hdown (hfile.above (List.cons_ne_nil last []))
  have hlead := (Disk.isDirectory_iff.1 hdirectory).2.append hfront
  have hfollow : Disk.follow disk.tree (disk.start sourceRoot) (sourceRoot.parts ++ front ++ [last]) =
      .ok (walkUpAndDown (disk.start sourceRoot) (sourceRoot.parts ++ front ++ [last])) :=
    (Disk.follow_concat_iff (Disk.sight?_start hcurrent sourceRoot)).2 ⟨hlead, rfl⟩
  rw [List.append_assoc] at hfollow
  have hlocate : disk.locate (moduleAt sourceRoot (front ++ [last])).path =
      .ok (disk.place (moduleAt sourceRoot (front ++ [last])).path) :=
    Disk.locate_eq_ok_iff.2 ⟨hnull, hfollow⟩
  rw [Disk.find?, hlocate]
  exact ⟨content, mode, Tree.sight?_eq_file_iff.1 hseen⟩

theorem scan_eq_modulesIn {tree : Tree} {relative : Path}
    (hroot : disk.isDirectory (root.absolute disk.current) = true)
    (hfound : disk.find? ((root.absolute disk.current).joinText sourceDirectory) = some (.directory tree))
    (hrelative : ((root.absolute disk.current).joinText sourceDirectory).relativeTo
      (root.absolute disk.current) = .ok relative) :
    scan disk selection root sourceDirectory =
      .ok (modulesIn selection ((root.absolute disk.current).joinText sourceDirectory) relative tree) := by
  obtain ⟨top, htop⟩ := Disk.exists_of_isDirectory hroot
  simp only [scan, htop, hfound, hrelative, modulesIn, moduleAt_concat]

theorem scan_eq_nil (hroot : disk.isDirectory (root.absolute disk.current) = true)
    (hmissing : disk.isDirectory ((root.absolute disk.current).joinText sourceDirectory) = false) :
    scan disk selection root sourceDirectory = .ok [] := by
  obtain ⟨top, htop⟩ := Disk.exists_of_isDirectory hroot
  simp only [scan, htop]
  split
  · rename_i inside hfound
    rw [Disk.isDirectory, hfound] at hmissing
    exact absurd hmissing (by simp [Entry.isDirectory])
  · rfl

/-! ### The same modules on two disks -/

/-- Lists of modules in the order of their paths are the same if they hold the same modules. -/
theorem modulesIn_eq {sourceRoot relative : Path} {tree next : Tree} (hproper : tree.isProper = true)
    (hnext : next.isDistinct = true) (hplain : ∀ part ∈ sourceRoot.parts, Path.isPlainPart part = true)
    (hfiles : ∀ location, selection.finds relative [] location = true →
      (next.FileAt location ↔ tree.FileAt location)) :
    modulesIn selection sourceRoot relative next = modulesIn selection sourceRoot relative tree := by
  have hdistinct := Tree.isDistinct_of_isProper hproper
  have hmem (source : SourceModule) : source ∈ modulesIn selection sourceRoot relative next ↔
      source ∈ modulesIn selection sourceRoot relative tree := by
    rw [mem_modulesIn_iff hdistinct, mem_modulesIn_iff hnext]
    refine exists_congr fun location => and_congr_right fun _ => and_congr_right fun hfinds => ?_
    exact hfiles location hfinds
  have hperm : (modulesIn selection sourceRoot relative next).Perm
      (modulesIn selection sourceRoot relative tree) :=
    (List.perm_ext_iff_of_nodup (nodup_modulesIn _ _ _ hnext) (nodup_modulesIn _ _ _ hdistinct)).2 hmem
  refine hperm.eq_of_pairwise ?_ (pairwise_mergeSort_pathLe _) (pairwise_mergeSort_pathLe _)
  intro source other hsource hother hle hge
  have hparts {source : SourceModule} (h : source ∈ modulesIn selection sourceRoot relative tree) :
      ∃ location, source = moduleAt sourceRoot location ∧
        ∀ part ∈ (moduleAt sourceRoot location).path.parts, Path.isPlainPart part = true := by
    obtain ⟨location, rfl, -, content, mode, hfile⟩ := (mem_modulesIn_iff hdistinct).1 h
    refine ⟨location, rfl, fun part hpart => ?_⟩
    rcases List.mem_append.1 hpart with hup | hbelow
    · exact hplain part hup
    · exact isPlainPart_of_isEntryName (Tree.isEntryName_of_sight hproper hfile part hbelow)
  obtain ⟨location, rfl, hlocation⟩ := hparts ((hmem source).1 hsource)
  obtain ⟨further, rfl, hfurther⟩ := hparts hother
  have htext := String.le_antisymm (pathLe_iff.1 hle) (pathLe_iff.1 hge)
  have hpath := Path.eq_of_toText_eq hlocation hfurther htext
  have hparts := congrArg Path.parts hpath
  exact congrArg (moduleAt sourceRoot) (List.append_cancel_left hparts)

section again

variable {sourceRoot relative : Path} {tree next : Tree} (hafter : after.tree.isDistinct = true)
  (hkeeps : Disk.KeepsDirectories disk after) (hdown : ".." ∉ sourceRoot.parts)
  (hlater : after.find? sourceRoot = some (.directory next))
  (hsame : ∀ below, selection.finds relative [] below = true →
    (after.tree.FileAt (disk.place sourceRoot ++ below) ↔ disk.tree.FileAt (disk.place sourceRoot ++ below)))
include hafter hkeeps hdown hlater hsame

/-- In a directory that was missing there is no module, if no file came. -/
theorem modulesIn_eq_nil (hmissing : disk.isDirectory sourceRoot = false) :
    modulesIn selection sourceRoot relative next = [] := by
  have hinside := Disk.find?_directory hlater
  rw [hkeeps.place_eq] at hinside
  rw [List.eq_nil_iff_forall_not_mem]
  intro source hsource
  obtain ⟨location, rfl, hfinds, hfile⟩ :=
    (mem_modulesIn_iff (Tree.isDistinct_of_find? hafter hinside)).1 hsource
  -- a file below the source directory was there before, and so was the directory
  have hbefore : disk.tree.FileAt (disk.place sourceRoot ++ location) := by
    rw [← hsame location hfinds, Tree.FileAt, Tree.sight?_append hinside]
    exact hfile
  have hdirectory := hbefore.above (Selection.ne_nil_of_finds hfinds)
  rw [Disk.place, Path.walkUpAndDown_eq_append hdown] at hdirectory
  have hthere : after.isDirectory sourceRoot = true := by
    rw [Disk.isDirectory, hlater]
    rfl
  have hfirst := Disk.isDirectory_iff.2
    ⟨(Disk.isDirectory_iff.1 hthere).1, Disk.leadsTo_of_sight hdown hdirectory⟩
  rw [hmissing] at hfirst
  exact absurd hfirst (by simp)

/-- In a directory that was there the modules are the same, if no file came or went. -/
theorem modulesIn_eq_of_directory (hproper : disk.tree.isProper = true)
    (hfound : disk.find? sourceRoot = some (.directory tree)) :
    modulesIn selection sourceRoot relative next = modulesIn selection sourceRoot relative tree := by
  have hinside := Disk.find?_directory hfound
  have hinsideNext := Disk.find?_directory hlater
  rw [hkeeps.place_eq] at hinsideNext
  obtain ⟨hnames, hproperTree⟩ := Tree.isEntryName_of_find? hproper hinside
  refine modulesIn_eq (hproperTree tree rfl) (Tree.isDistinct_of_find? hafter hinsideNext) ?_ ?_
  · intro part hpart
    refine isPlainPart_of_isEntryName (hnames part ?_)
    rw [Disk.place, Path.walkUpAndDown_eq_append hdown]
    exact List.mem_append_right _ hpart
  · intro below hfinds
    have hboth := hsame below hfinds
    rw [Tree.FileAt, Tree.FileAt, Tree.sight?_append hinside, Tree.sight?_append hinsideNext] at hboth
    exact hboth

end again

/-- A scan is told by the files with a source suffix that are seen, as long as no directory goes and the
source directory is there or spelled below the root. -/
theorem scan_eq (hproper : disk.tree.isProper = true) (hafter : after.tree.isDistinct = true)
    (hcurrent : disk.HasCurrent) (hkeeps : Disk.KeepsDirectories disk after)
    (hdown : ".." ∉ (Path.ofText sourceDirectory).parts)
    (hbelow : disk.isDirectory ((root.absolute disk.current).joinText sourceDirectory) = true ∨
      ∃ relative, ((root.absolute disk.current).joinText sourceDirectory).relativeTo
        (root.absolute disk.current) = .ok relative)
    (hfiles : ∀ location name, selection.hasSuffix name = true →
      (after.tree.FileAt (location ++ [name]) ↔ disk.tree.FileAt (location ++ [name])))
    (h : scan disk selection root sourceDirectory = .ok sources) :
    scan after selection root sourceDirectory = .ok sources := by
  have hnamed := Tree.isNamed_of_isProper hproper
  have hrootDown := Path.notMem_joinText
    (Path.notMem_absolute (Disk.notMem_current hnamed hcurrent) root) hdown
  obtain ⟨hroot, hcases⟩ := scan_eq_ok_cases h
  have hrootAfter := hkeeps.isDirectory hroot
  have hspelledBelow : ∃ relative, ((root.absolute disk.current).joinText sourceDirectory).relativeTo
      (root.absolute disk.current) = .ok relative := by
    rcases hbelow with hthere | hbelow
    · rcases hcases with ⟨hmissing, -⟩ | ⟨-, relative, -, hrelative, -⟩
      · rw [hthere] at hmissing
        exact absurd hmissing (by simp)
      · exact ⟨relative, hrelative⟩
    · exact hbelow
  obtain ⟨relative, hrelative⟩ := hspelledBelow
  have hsame (below : Location) (hfinds : selection.finds relative [] below = true) :
      after.tree.FileAt (disk.place ((root.absolute disk.current).joinText sourceDirectory) ++ below) ↔
        disk.tree.FileAt (disk.place ((root.absolute disk.current).joinText sourceDirectory) ++ below) := by
    obtain ⟨directory, name, rfl, hsuffix⟩ := Selection.hasSuffix_of_finds hfinds
    rw [← List.append_assoc]
    exact hfiles _ name hsuffix
  have hagain : root.absolute after.current = root.absolute disk.current := by rw [hkeeps.current]
  generalize hspelled : (root.absolute disk.current).joinText sourceDirectory = sourceRoot at *
  have hnext {next : Tree} (hlater : after.find? sourceRoot = some (.directory next)) :
      scan after selection root sourceDirectory = .ok (modulesIn selection sourceRoot relative next) := by
    rw [← hspelled, ← hagain] at hlater hrelative ⊢
    exact scan_eq_modulesIn (by rwa [hagain]) hlater hrelative
  rcases hcases with ⟨hmissing, rfl⟩ | ⟨tree, further, hfound, hfurther, rfl⟩
  · cases hthere : after.isDirectory sourceRoot with
    | false =>
      rw [← hspelled, ← hagain] at hthere
      exact scan_eq_nil (by rwa [hagain]) hthere
    | true =>
      obtain ⟨next, hlater⟩ := Disk.exists_of_isDirectory hthere
      rw [hnext hlater, modulesIn_eq_nil hafter hkeeps hrootDown hlater hsame hmissing]
  · obtain rfl : further = relative := Except.ok.inj (hfurther.symm.trans hrelative)
    have hdirectory : disk.isDirectory sourceRoot = true := by
      rw [Disk.isDirectory, hfound]
      rfl
    obtain ⟨next, hlater⟩ := Disk.exists_of_isDirectory (hkeeps.isDirectory hdirectory)
    rw [hnext hlater, modulesIn_eq_of_directory hafter hkeeps hrootDown hlater hsame hproper hfound]

end FfiBindings
