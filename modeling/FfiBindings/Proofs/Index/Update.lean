import FfiBindings.Index.Update
import FfiBindings.Proofs.Index.Merge
import FfiBindings.Proofs.Tree.Plain
import Mathlib.Data.List.Nodup
import Mathlib.Data.List.Perm.Subperm

/-!
What updates of an index leave on the disk, however many there are and wherever they fail. The temporary
file has a name of its own (`temporaryName_notMem`) and is gone when a replacement ends, so that what is
seen on the disk differs at the location of the index only, and there only if no step failed
(`replaceFile_spec`).
-/

set_option autoImplicit false
set_option relaxedAutoImplicit false

namespace FfiBindings.Index

open Disk

/-! ### The name of the temporary file -/

/-- The names that a temporary file may get. -/
def temporaryCandidate (name : String) (n : Nat) : String :=
  "." ++ name ++ "." ++ n.repr ++ ".tmp"

theorem temporaryCandidate_injective (name : String) :
    Function.Injective (temporaryCandidate name) := by
  intro first second h
  have hdigits : first.repr.toList = second.repr.toList := by
    have htext := congrArg String.toList h
    simpa [temporaryCandidate, String.toList_append] using htext
  rw [Nat.toList_repr, Nat.toList_repr] at hdigits
  calc
    first = Nat.ofDigitChars 10 (Nat.toDigits 10 first) 0 := Nat.ofDigitChars_ten_toDigits.symm
    _ = Nat.ofDigitChars 10 (Nat.toDigits 10 second) 0 := by rw [hdigits]
    _ = second := Nat.ofDigitChars_ten_toDigits

theorem temporaryName_eq_candidate (name : String) (taken : List String) :
    ∃ n, temporaryName name taken = temporaryCandidate name n :=
  ⟨_, rfl⟩

/-- One of the candidates is free, there being more of them than names that are taken. -/
theorem temporaryName_notMem (name : String) (taken : List String) :
    temporaryName name taken ∉ taken := by
  have hsome : ∃ n ∈ List.range (taken.length + 1), temporaryCandidate name n ∉ taken := by
    by_contra hnone
    have hall : ∀ n ∈ List.range (taken.length + 1), temporaryCandidate name n ∈ taken := by
      intro n hn
      by_contra hfree
      exact hnone ⟨n, hn, hfree⟩
    have hnodup : ((List.range (taken.length + 1)).map (temporaryCandidate name)).Nodup :=
      List.nodup_range.map (temporaryCandidate_injective name)
    have hsubset : (List.range (taken.length + 1)).map (temporaryCandidate name) ⊆ taken := by
      intro candidate hcandidate
      obtain ⟨n, hn, rfl⟩ := List.mem_map.1 hcandidate
      exact hall n hn
    have hlength := (hnodup.subperm hsubset).length_le
    rw [List.length_map, List.length_range] at hlength
    omega
  obtain ⟨n, hn, hfree⟩ := hsome
  have hfind : ((List.range (taken.length + 1)).find? fun n =>
      !taken.contains (temporaryCandidate name n)).isSome := by
    rw [List.find?_isSome]
    exact ⟨n, hn, by simpa using hfree⟩
  obtain ⟨found, hfound⟩ := Option.isSome_iff_exists.1 hfind
  have hname : temporaryName name taken = temporaryCandidate name found := by
    show temporaryCandidate name (((List.range (taken.length + 1)).find? fun n =>
      !taken.contains (temporaryCandidate name n)).getD 0) = temporaryCandidate name found
    rw [hfound, Option.getD_some]
  rw [hname]
  simpa using List.find?_some hfound

theorem temporaryName_toList (name : String) (taken : List String) :
    ∃ n, (temporaryName name taken).toList =
      ['.'] ++ name.toList ++ ['.'] ++ Nat.toDigits 10 n ++ ['.', 't', 'm', 'p'] := by
  obtain ⟨n, hn⟩ := temporaryName_eq_candidate name taken
  refine ⟨n, ?_⟩
  rw [hn, temporaryCandidate, String.toList_append, String.toList_append, String.toList_append,
    String.toList_append, Nat.toList_repr]
  rfl

/-- The name of a temporary file for a name that a disk can have can itself be had. -/
theorem notMem_temporaryName {name : String} (hname : '\x00' ∉ name.toList) (taken : List String) :
    '\x00' ∉ (temporaryName name taken).toList := by
  obtain ⟨n, htext⟩ := temporaryName_toList name taken
  have hdigits : '\x00' ∉ Nat.toDigits 10 n := by
    intro hmem
    exact absurd (Nat.isDigit_of_mem_toDigits (by omega) (by omega) hmem) (by decide)
  rw [htext]
  simp [hname, hdigits]

theorem temporaryName_ne (name : String) (taken : List String) : temporaryName name taken ≠ ".." := by
  obtain ⟨n, htext⟩ := temporaryName_toList name taken
  intro heq
  have hlast := congrArg (fun s => s.toList.getLast?) heq
  simp only [htext, List.getLast?_append] at hlast
  have hletter : some 'p' = some '.' := hlast
  exact absurd hletter (by decide)

/-! ### One replacement -/

variable {disk : Disk} {path : Path} {beside location : Location} {content : ByteArray} {mode : Nat}
  {obstacle : Option FileError} {faults : Faults}

/-- The first of the steps after the directory at which a replacement fails. -/
def replacementFault (faults : Faults) : Option FileError :=
  (faults .temporary).or ((faults .content).or ((faults .permissions).or (faults .rename)))

/-- A replacement leaves no trace of the temporary file, and another file at the location only where
no step fails and nothing is in the way. -/
theorem replaceAt_spec (hbeside : disk.tree.sight? beside = none)
    (hparent : disk.tree.sight? beside.dropLast = some .directory)
    (hplace : obstacle = none → location ≠ [] ∧ disk.tree.sight? location.dropLast = some .directory ∧
      disk.tree.sight? location ≠ some .directory) :
    (replaceAt disk beside location mode content obstacle faults).2 =
        (replacementFault faults).or obstacle ∧
      ShowsAt disk (replaceAt disk beside location mode content obstacle faults).1 location
        (if (replacementFault faults).or obstacle = none then some (.file content mode)
          else disk.tree.sight? location) := by
  have hne : beside ≠ [] := by
    rintro rfl
    rw [Tree.sight?_nil] at hbeside
    exact absurd hbeside (by simp)
  have hnone : Tree.DiffersAt disk.tree disk.tree beside := .refl (by rw [hbeside]; simp)
  have herased {next : Tree} (h : Tree.DiffersAt disk.tree next beside) (other : Location) :
      (next.eraseAt beside).sight? other = disk.tree.sight? other := by
    rw [h.sight?_eraseAt hne hparent]
    split
    · rename_i heq
      rw [heq, hbeside]
    · rfl
  have hremoved {next : Tree} (h : Tree.DiffersAt disk.tree next beside) :
      ShowsAt disk { disk with tree := next.eraseAt beside } location (disk.tree.sight? location) := by
    refine ⟨rfl, rfl, fun other => (herased h other).trans ?_⟩
    split
    · rename_i heq
      rw [heq]
    · rfl
  have hcreated := hnone.putAt hne hparent .empty privateMode
  have hwritten := hcreated.putAt hne hparent content privateMode
  have hpermitted := hwritten.putAt hne hparent content mode
  unfold replaceAt replacementFault
  cases htemporary : faults .temporary with
  | some error => exact ⟨rfl, ShowsAt.refl disk location⟩
  | none =>
    cases hcontent : faults .content with
    | some error => exact ⟨rfl, hremoved hcreated⟩
    | none =>
      cases hpermissions : faults .permissions with
      | some error => exact ⟨rfl, hremoved hwritten⟩
      | none =>
        cases hrename : faults .rename with
        | some error => exact ⟨rfl, hremoved hpermitted⟩
        | none =>
          cases obstacle with
          | some error => exact ⟨rfl, hremoved hpermitted⟩
          | none =>
            obtain ⟨hlocation, habove, hfree⟩ := hplace rfl
            have hrest : Tree.DiffersAt disk.tree (Tree.eraseAt _ beside) location :=
              ⟨fun other _ => herased hpermitted other, by rw [herased hpermitted]; exact hfree⟩
            exact ⟨rfl, rfl, rfl, hrest.sight?_putAt hlocation habove content mode⟩

/-- A temporary file has a path that a disk can have, if it is beside one. -/
theorem hasNull_temporary (hnull : hasNull path = false) (taken : List String) :
    hasNull (path.parent.child (temporaryName path.name taken)) = false := by
  have hparts : ∀ part ∈ path.parts, '\x00' ∉ part.toList := by
    simpa [hasNull] using hnull
  have hname : '\x00' ∉ path.name.toList := by
    unfold Path.name
    cases hlast : path.parts.getLast? with
    | none => simp
    | some last => exact hparts last (List.mem_of_getLast? hlast)
  have hplain := notMem_temporaryName hname taken
  have hinit : ∀ part ∈ path.parts.dropLast, '\x00' ∉ part.toList := fun part hpart =>
    hparts part (List.dropLast_subset _ hpart)
  simpa [hasNull, Path.child, Path.parent, hplain] using hinit

/-- A path whose directory is there has a place for a temporary file in it. -/
theorem locate_temporary (hcurrent : disk.HasCurrent) (hnull : hasNull path = false)
    (hparent : disk.isDirectory path.parent = true) :
    ∃ beside, disk.locate (path.parent.child (temporaryName path.name (namesIn disk path.parent))) =
        .ok beside ∧
      disk.tree.sight? beside = none ∧ disk.tree.sight? beside.dropLast = some .directory := by
  obtain ⟨hfollow, hdirectory⟩ := (isDirectory_iff.1 hparent).2
  have hplace : disk.place ⟨path.anchor, path.parts.dropLast ++
      [temporaryName path.name (namesIn disk path.parent)]⟩ =
        disk.place path.parent ++ [temporaryName path.name (namesIn disk path.parent)] := by
    refine (Path.walkUpAndDown_concat _ _ _).trans ?_
    rw [stepTo, if_neg (temporaryName_ne _ _)]
    rfl
  have hlocate : disk.locate (path.parent.child (temporaryName path.name (namesIn disk path.parent))) =
      .ok (disk.place path.parent ++ [temporaryName path.name (namesIn disk path.parent)]) := by
    rw [← hplace]
    exact locate_concat hcurrent (hasNull_temporary hnull _) hparent
  refine ⟨_, hlocate, ?_, ?_⟩
  · obtain ⟨inside, hinside⟩ := Tree.sight?_eq_directory_iff.1 hdirectory
    have hnames : namesIn disk path.parent = inside.names := by
      have hfind : disk.find? path.parent = some (.directory inside) := by
        rw [find?, locate_eq_ok_iff.2 ⟨(isDirectory_iff.1 hparent).1, hfollow⟩]
        exact hinside
      rw [namesIn, hfind]
    have hfree : inside.get? (temporaryName path.name inside.names) = none :=
      Tree.get?_eq_none (temporaryName_notMem _ _)
    rw [place, Tree.sight?_append hinside, hnames, Tree.sight?_cons, hfree, Option.bind_none]
  · rw [List.dropLast_concat]
    exact hdirectory

/-- What is in the way of a replacement: a directory in the place of the file. -/
def obstacleAt (disk : Disk) (temporary path : Path) (location : Location) : Option FileError :=
  if disk.tree.isDirectoryAt location then some (directoryInPlace temporary path) else none

theorem obstacleAt_eq_none_iff {temporary : Path} :
    obstacleAt disk temporary path location = none ↔ disk.tree.sight? location ≠ some .directory := by
  rw [obstacleAt, Ne, ← Tree.isDirectoryAt_iff]
  split <;> simp_all

/-- What a replacement leaves, once the directory of the path is made. -/
theorem replaceFile_made {made : Disk} (content : ByteArray) (faults : Faults) (hcurrent : disk.HasCurrent)
    (hmade : disk.makeDirectories path.parent = (made, none)) (hdirectory : faults .directory = none)
    (hlocate : made.locate path = .ok location) :
    ∃ temporary, (replaceFile disk path content faults).2 =
        (replacementFault faults).or (obstacleAt made temporary path location) ∧
      ShowsAt made (replaceFile disk path content faults).1 location
        (if (replacementFault faults).or (obstacleAt made temporary path location) = none then
            some (.file content (modeFor made path))
          else made.tree.sight? location) := by
  have hgrows := makeDirectories_grows hcurrent path.parent
  have hparent : (disk.makeDirectories path.parent).1.isDirectory path.parent = true :=
    isDirectory_makeDirectories hcurrent (by rw [hmade])
  rw [hmade] at hgrows hparent
  have hthere := hgrows.keeps.hasCurrent hcurrent
  obtain ⟨beside, htemporary, hfree, hbeside⟩ :=
    locate_temporary hthere (locate_eq_ok_iff.1 hlocate).1 hparent
  refine ⟨path.parent.child (temporaryName path.name (namesIn made path.parent)), ?_⟩
  simp only [replaceFile, prepare, hdirectory, hmade, htemporary, hlocate]
  refine replaceAt_spec hfree hbeside fun hobstacle => ?_
  have hplace := obstacleAt_eq_none_iff.1 hobstacle
  obtain ⟨hne, habove⟩ := sight?_dropLast_of_locate hthere hlocate hplace
  exact ⟨hne, habove, hplace⟩

/-- What a replacement leaves where no directory is in the place of the file. -/
theorem replaceFile_spec {made : Disk} (content : ByteArray) (faults : Faults) (hcurrent : disk.HasCurrent)
    (hmade : disk.makeDirectories path.parent = (made, none)) (hdirectory : faults .directory = none)
    (hlocate : made.locate path = .ok location) (hplace : made.tree.sight? location ≠ some .directory) :
    (replaceFile disk path content faults).2 = replacementFault faults ∧
      ShowsAt made (replaceFile disk path content faults).1 location
        (if replacementFault faults = none then some (.file content (modeFor made path))
          else made.tree.sight? location) := by
  obtain ⟨temporary, hfault, hshows⟩ := replaceFile_made content faults hcurrent hmade hdirectory hlocate
  rw [obstacleAt_eq_none_iff.2 hplace, Option.or_none] at hfault hshows
  exact ⟨hfault, hshows⟩

/-! ### The index file -/

/-- The text of an index and its permission bits. -/
structure IndexFile where
  text : String
  mode : Nat

def IndexFile.sight (file : IndexFile) : Sight :=
  .file file.text.toUTF8 file.mode

def IndexFile.entry (file : IndexFile) : Entry :=
  .file file.text.toUTF8 file.mode

/-- The text of an index that may be absent. -/
def textOf (index : Option IndexFile) : String :=
  (index.map IndexFile.text).getD ""

theorem find?_eq_map_iff {index : Option IndexFile} (hlocate : disk.locate path = .ok location) :
    disk.find? path = index.map IndexFile.entry ↔
      disk.tree.sight? location = index.map IndexFile.sight := by
  rw [find?, hlocate]
  cases index with
  | none => exact Tree.sight?_eq_none_iff.symm
  | some file => exact Tree.sight?_eq_file_iff.symm

theorem sight_ne_directory (index : Option IndexFile) :
    index.map IndexFile.sight ≠ some .directory := by
  cases index <;> simp [IndexFile.sight]

/-- The text is read back from where it is seen. -/
theorem readText_of_sight {index : Option IndexFile} (hread : faults .read = none)
    (hlocate : disk.locate path = .ok location)
    (hsight : disk.tree.sight? location = index.map IndexFile.sight) :
    readText disk path faults = .ok (textOf index) := by
  cases index with
  | none =>
    have hnone := Tree.sight?_eq_none_iff.1 hsight
    simp only [readText, hread, Disk.read, hlocate, hnone, isNotFound, if_true, textOf, Option.map_none,
      Option.getD_none]
  | some file =>
    have hfile := Tree.sight?_eq_file_iff.1 hsight
    simp only [readText, hread, Disk.read, hlocate, hfile, Text.Utf8.decode_toUTF8]
    rfl

theorem modeFor_of_sight {index : Option IndexFile} (hlocate : disk.locate path = .ok location)
    (hsight : disk.tree.sight? location = index.map IndexFile.sight) :
    modeFor disk path = (index.map IndexFile.mode).getD disk.newFileMode := by
  rw [modeFor, (find?_eq_map_iff hlocate).2 hsight]
  cases index <;> rfl

end FfiBindings.Index
