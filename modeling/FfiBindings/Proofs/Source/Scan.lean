import FfiBindings.Proofs.Journal
import FfiBindings.Proofs.Tree.Names
import FfiBindings.Source.Scan

/-!
What a scan finds. Every module is a file below the source root whose name has a source suffix, and the
names on the way to it are names on the disk (`scan_mem`). What files hold has no influence
(`scan_eq_of_sameNames`), so nothing that is noted in a log file changes what is found (`scan_note`).
-/

set_option autoImplicit false
set_option relaxedAutoImplicit false

namespace FfiBindings

open Tree (SameNames)

namespace Selection

variable {selection : Selection} {tree next : Tree} {root : Path} {above : List String}

/-- What a walk finds has a source suffix, and lies below where the walk begins. -/
theorem mem_walk {holds : Tree → Prop} {fits : String → Prop} {directory : List String} {name : String}
    (hdown : Tree.GoesDown holds fits) (htree : holds tree)
    (h : (directory, name) ∈ selection.walk root above tree) :
    ∃ below, directory = above ++ below ∧ (∀ part ∈ below, fits part) ∧ fits name ∧
      selection.hasSuffix name = true := by
  induction tree generalizing above with
  | empty => exact absurd h (by simp [walk])
  | file other content mode rest ih =>
    obtain ⟨hother, hrest⟩ := hdown.file other content mode rest htree
    rw [walk] at h
    split at h
    · rename_i htakes
      rcases List.mem_cons.1 h with heq | hlater
      · obtain ⟨rfl, rfl⟩ := Prod.mk.inj heq
        rw [takes, Bool.and_eq_true] at htakes
        exact ⟨[], (List.append_nil _).symm, by simp, hother, htakes.1⟩
      · exact ih hrest hlater
    · exact ih hrest h
  | directory other inside rest ihinside ihrest =>
    obtain ⟨hother, hinside, hrest⟩ := hdown.directory other inside rest htree
    rw [walk] at h
    split at h
    · rcases List.mem_append.1 h with hbelow | hlater
      · obtain ⟨below, hdirectory, hparts, hlast⟩ := ihinside hinside hbelow
        refine ⟨other :: below, ?_, List.forall_mem_cons.2 ⟨hother, hparts⟩, hlast⟩
        rw [hdirectory, List.append_assoc, List.singleton_append]
      · exact ihrest hrest hlater
    · exact ihrest hrest h

/-- A walk does not look into files. -/
theorem walk_eq_of_sameNames (selection : Selection) (root : Path) (h : SameNames tree next)
    (above : List String) : selection.walk root above next = selection.walk root above tree := by
  induction h generalizing above with
  | empty => rfl
  | file name content other mode otherMode _ ih => rw [walk, walk, ih]
  | directory name _ _ hinside hrest => rw [walk, walk, hinside, hrest]

end Selection

variable {disk after : Disk} {selection : Selection} {root : Path} {sourceDirectory : String}
  {sources : List SourceModule}

/-- A module is a file in a directory below the source root, which is found on the disk. -/
theorem scan_mem (hnamed : disk.tree.isNamed = true)
    (h : scan disk selection root sourceDirectory = .ok sources) {source : SourceModule}
    (hsource : source ∈ sources) :
    let sourceRoot := (root.absolute disk.current).joinText sourceDirectory
    ∃ name, source.path = (sourceRoot.join ⟨.current, source.directory⟩).child name ∧
      disk.isDirectory sourceRoot = true ∧ (∀ part ∈ source.directory, isFileName part = true) ∧
      isFileName name = true ∧ selection.hasSuffix name = true := by
  intro sourceRoot
  rw [scan] at h
  simp only at h
  split at h
  · exact absurd h (by simp)
  · exact absurd h (by simp)
  · split at h
    · rename_i tree hfound
      split at h
      · exact absurd h (by simp)
      · rename_i relative hrelative
        rw [← Except.ok.inj h, List.mem_mergeSort, List.mem_map] at hsource
        obtain ⟨⟨directory, name⟩, hwalk, rfl⟩ := hsource
        obtain ⟨location, hlocation⟩ : ∃ location, disk.tree.find? location = some (.directory tree) := by
          unfold Disk.find? at hfound
          split at hfound
          · exact ⟨_, hfound⟩
          · exact absurd hfound (by simp)
        have hinside := (Tree.isFileName_of_find? hnamed hlocation).2 tree rfl
        obtain ⟨below, hdirectory, hparts, hname, hsuffix⟩ := Selection.mem_walk Tree.goesDown_isNamed hinside hwalk
        rw [List.nil_append] at hdirectory
        refine ⟨name, rfl, ?_, hdirectory ▸ hparts, hname, hsuffix⟩
        rw [Disk.isDirectory, hfound]
        rfl
    · rw [← Except.ok.inj h] at hsource
      exact absurd hsource List.not_mem_nil

/-- Modules that a walk finds in their order are found by a scan. -/
theorem scan_of_sorted {tree : Tree} {relative : Path}
    (hroot : disk.isDirectory (root.absolute disk.current) = true)
    (hfound : disk.find? ((root.absolute disk.current).joinText sourceDirectory) = some (.directory tree))
    (hrelative : ((root.absolute disk.current).joinText sourceDirectory).relativeTo
      (root.absolute disk.current) = .ok relative)
    (hwalk : (selection.walk relative [] tree).map (fun (directory, name) => SourceModule.mk
      ((((root.absolute disk.current).joinText sourceDirectory).join ⟨.current, directory⟩).child name)
        directory) = sources)
    (hsorted : sources.Pairwise fun source other => pathLe source other = true) :
    scan disk selection root sourceDirectory = .ok sources := by
  rw [scan]
  cases htop : disk.find? (root.absolute disk.current) with
  | none =>
    rw [Disk.isDirectory, htop] at hroot
    exact absurd hroot (by simp)
  | some entry =>
    cases entry with
    | file content mode =>
      rw [Disk.isDirectory, htop] at hroot
      exact absurd hroot (by simp [Entry.isDirectory])
    | directory top =>
      simp only [hfound, hrelative, hwalk]
      rw [List.mergeSort_of_pairwise hsorted]

/-- The modules that a scan comes to, in the order in which it meets them. -/
def met? (disk : Disk) (selection : Selection) (root : Path) (sourceDirectory : String) : Option (List SourceModule) :=
  let root := root.absolute disk.current
  let sourceRoot := root.joinText sourceDirectory
  match disk.isDirectory root, disk.find? sourceRoot, sourceRoot.relativeTo root with
  | true, some (.directory tree), .ok relative =>
    some ((selection.walk relative [] tree).map fun (directory, name) =>
      ⟨(sourceRoot.join ⟨.current, directory⟩).child name, directory⟩)
  | _, _, _ => none

/-- Modules that are met in their order need no sorting. -/
theorem scan_of_met (hmet : met? disk selection root sourceDirectory = some sources)
    (hsorted : sources.Pairwise fun source other => pathLe source other = true) :
    scan disk selection root sourceDirectory = .ok sources := by
  unfold met? at hmet
  dsimp only at hmet
  split at hmet
  · rename_i hroot hfound hrelative
    exact scan_of_sorted hroot hfound hrelative (Option.some.inj hmet) hsorted
  · exact absurd hmet nofun

/-- What files hold has no influence on a scan. -/
theorem scan_eq_of_sameNames (hcurrent : after.current = disk.current)
    (h : SameNames disk.tree after.tree) :
    scan after selection root sourceDirectory = scan disk selection root sourceDirectory := by
  rw [scan, scan, hcurrent]
  simp only
  rcases Tree.alike_cases (Disk.find?_alike hcurrent h (root.absolute disk.current)) with
    ⟨hbefore, hafter⟩ | ⟨content, mode, new, newMode, hbefore, hafter⟩ |
      ⟨top, next, hbefore, hafter, -⟩
  · rw [hbefore, hafter]
  · rw [hbefore, hafter]
  · rw [hbefore, hafter]
    rcases Tree.alike_cases
        (Disk.find?_alike hcurrent h ((root.absolute disk.current).joinText sourceDirectory)) with
      ⟨hbefore, hafter⟩ | ⟨content, mode, new, newMode, hbefore, hafter⟩ |
        ⟨inside, within, hbefore, hafter, hinside⟩
    · rw [hbefore, hafter]
    · rw [hbefore, hafter]
    · rw [hbefore, hafter]
      simp only [selection.walk_eq_of_sameNames _ hinside]

theorem Session.append_sameNames (disk : Disk) (location : Location) (text : String) :
    SameNames disk.tree (append disk location text).tree := by
  unfold append
  split
  · exact Tree.sameNames_putAt ‹_›
  · exact .refl _

theorem Session.note_sameNames (session : Session) (message : Message) :
    SameNames session.disk.tree (session.note message).disk.tree :=
  session.note_keeps message (fun disk => SameNames session.disk.tree disk.tree) (.refl _)
    fun disk location _ hsofar => hsofar.trans (append_sameNames disk location _)

/-- Nothing that is noted changes what a scan finds. -/
theorem scan_note (session : Session) (message : Message) :
    scan (session.note message).disk selection root sourceDirectory =
      scan session.disk selection root sourceDirectory :=
  scan_eq_of_sameNames (Session.note_changes session message).current
    (session.note_sameNames message)

end FfiBindings
