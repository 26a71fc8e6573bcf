import FfiBindings.Proofs.Config.Load
import FfiBindings.Proofs.Source.Scan
import FfiBindings.Proofs.Tree.Plain
import FfiBindings.Source.Language

/-!
The paths of source modules and of their bindings. Both are plain for the modules that a scan finds
(`scan_path_isPlain`, `bindingPath_isPlain`), and since no binding has the name of a source
(`not_hasSuffix_bindingName`), none is in the place of one (`place_path_ne`).
-/

set_option autoImplicit false
set_option relaxedAutoImplicit false

namespace FfiBindings

open Disk (IsPlain hasNull)

namespace Disk

/-- Names that lead to a directory are names that a file can have. -/
theorem notMem_current {disk : Disk} (hnamed : disk.tree.isNamed = true) (hcurrent : disk.HasCurrent) :
    ".." ∉ disk.current := by
  obtain ⟨inside, hinside⟩ := Tree.sight?_eq_directory_iff.1 hcurrent
  intro hmem
  exact ne_of_isFileName ((Tree.isFileName_of_find? hnamed hinside).1 ".." hmem) rfl

end Disk

/-! ### Names -/

theorem Path.splitSuffix_subset (name : List Char) : (Path.splitSuffix name).1 ⊆ name := by
  simp only [Path.splitSuffix]
  split
  · exact List.Subset.refl name
  · exact List.take_subset _ name

theorem Text.lowerAfter_append (before front back : List Char) :
    ∃ lowered, Text.lowerAfter before (front ++ back) =
      lowered ++ Text.lowerAfter (front.reverse ++ before) back := by
  induction front generalizing before with
  | nil => exact ⟨[], rfl⟩
  | cons c front ih =>
    obtain ⟨lowered, hrest⟩ := ih (c :: before)
    rw [List.cons_append, Text.lowerAfter, hrest, List.reverse_cons, List.append_assoc,
      List.singleton_append, ← List.append_assoc]
    exact ⟨_, rfl⟩

theorem lower_bindingName (text : String) :
    ['.', 't', 's'] <:+ (Text.lower (text ++ ".ts")).toList := by
  have hlast (before : List Char) : Text.lowerAfter before ['.', 't', 's'] = ['.', 't', 's'] := by
    simp [Text.lowerAfter, Text.lowerChar]
  have htext : (text ++ ".ts").toList = text.toList ++ ['.', 't', 's'] := by
    rw [String.toList_append]
    rfl
  obtain ⟨lowered, hlowered⟩ := Text.lowerAfter_append [] text.toList ['.', 't', 's']
  rw [hlast] at hlowered
  rw [Text.lower, String.toList_ofList, htext, hlowered]
  exact List.suffix_append lowered _

/-- No source has the name of a binding. -/
theorem not_hasSuffix_bindingName (excluded : List String) (text : String) :
    (Selection.of (Language.all.flatMap Language.suffixes) excluded).hasSuffix (text ++ ".ts") =
      false := by
  have hsuffixes : (Language.all.flatMap Language.suffixes).map Text.lower = [".rs"] := by decide
  rw [Selection.hasSuffix, Selection.of, hsuffixes, List.any_cons, List.any_nil, Bool.or_false,
    Bool.eq_false_iff]
  intro hsource
  have hsource : ['.', 'r', 's'] <:+ (Text.lower (text ++ ".ts")).toList :=
    List.isSuffixOf_iff_suffix.1 hsource
  have hboth := List.suffix_of_suffix_length_le hsource (lower_bindingName text) (Nat.le_refl 3)
  have heq := hboth.eq_of_length rfl
  exact absurd heq (by decide)

/-! ### Paths -/

theorem Path.join_parts_of_current (path : Path) (parts : List String) :
    path.join ⟨.current, parts⟩ = ⟨path.anchor, path.parts ++ parts⟩ := rfl

theorem Path.notMem_joinText {path : Path} {text : String} (hpath : ".." ∉ path.parts)
    (htext : ".." ∉ (Path.ofText text).parts) : ".." ∉ (path.joinText text).parts := by
  rw [Path.joinText, Path.join]
  split
  · rw [List.mem_append]
    exact fun hmem => hmem.elim hpath htext
  · exact htext

theorem SourceModule.bindingPath_parts (source : SourceModule) (outputRoot : Path) :
    (source.bindingPath outputRoot).parts =
      (source.bindingPath outputRoot).parent.parts ++ [source.baseName ++ ".ts"] := by
  simp only [SourceModule.bindingPath, Path.child, Path.parent, List.dropLast_concat]

variable {disk : Disk} {selection : Selection} {root : Path} {sourceDirectory : String}
  {sources : List SourceModule} {source : SourceModule}

/-- What is found is found at a path that a disk can have. -/
theorem scan_path_noNull (hnamed : disk.tree.isNamed = true)
    (h : scan disk selection root sourceDirectory = .ok sources) (hsource : source ∈ sources) :
    hasNull source.path = false := by
  obtain ⟨name, hpath, hdirectory, hparts, hname, -⟩ := scan_mem hnamed h hsource
  have hnull := Disk.hasNull_eq_false_iff.1 (Disk.isDirectory_iff.1 hdirectory).1
  rw [Disk.hasNull_eq_false_iff, hpath, Path.join_parts_of_current, Path.child]
  intro part hpart
  rcases List.mem_append.1 hpart with hmem | hmem
  · rcases List.mem_append.1 hmem with hup | hbelow
    · exact hnull part hup
    · exact notMem_of_isFileName (hparts part hbelow)
  · rw [List.mem_singleton.1 hmem]
    exact notMem_of_isFileName hname

/-- What is found is found at a plain path, with a source suffix. -/
theorem scan_path_isPlain (hnamed : disk.tree.isNamed = true) (hcurrent : disk.HasCurrent)
    (hdown : ".." ∉ (Path.ofText sourceDirectory).parts)
    (h : scan disk selection root sourceDirectory = .ok sources) (hsource : source ∈ sources) :
    IsPlain source.path ∧
      ∃ above name, source.path.parts = above ++ [name] ∧ selection.hasSuffix name = true := by
  obtain ⟨name, hpath, -, hparts, hname, hsuffix⟩ := scan_mem hnamed h hsource
  have hroot := Path.notMem_joinText
    (Path.notMem_absolute (Disk.notMem_current hnamed hcurrent) root) hdown
  have hspelled : source.path.parts =
      ((root.absolute disk.current).joinText sourceDirectory).parts ++ source.directory ++ [name] := by
    rw [hpath, Path.join_parts_of_current, Path.child]
  refine ⟨⟨?_, ?_⟩, _, name, hspelled, hsuffix⟩
  · rw [hspelled, List.mem_append, List.mem_append, List.mem_singleton]
    rintro ((hmem | hmem) | heq)
    · exact hroot hmem
    · exact ne_of_isFileName (hparts _ hmem) rfl
    · exact ne_of_isFileName hname heq.symm
  · exact scan_path_noNull hnamed h hsource

/-- The binding of a module that is found goes down where its root does, and its name has no null
character. -/
theorem bindingPath_down (hnamed : disk.tree.isNamed = true)
    (h : scan disk selection root sourceDirectory = .ok sources) (hsource : source ∈ sources)
    {outputRoot : Path} (hdown : ".." ∉ outputRoot.parts) :
    ".." ∉ (source.bindingPath outputRoot).parts ∧ '\x00' ∉ (source.baseName ++ ".ts").toList := by
  obtain ⟨name, hpath, -, hparts, hname, -⟩ := scan_mem hnamed h hsource
  have hbase : (source.baseName ++ ".ts").toList =
      (Path.splitSuffix name.toList).1 ++ ['.', 't', 's'] := by
    have hlast : source.path.name = name := by
      rw [hpath, Path.name, Path.child, List.getLast?_concat, Option.getD_some]
    rw [SourceModule.baseName, Path.stem, hlast, String.toList_append, String.toList_ofList]
    rfl
  constructor
  · rw [SourceModule.bindingPath, SourceModule.relativeDirectory, Path.join_parts_of_current, Path.child]
    rw [List.mem_append, List.mem_append, List.mem_singleton]
    rintro ((hmem | hmem) | heq)
    · exact hdown hmem
    · exact ne_of_isFileName (hparts _ hmem) rfl
    · rw [← heq] at hbase
      have hlast := congrArg List.getLast? hbase
      simp at hlast
  · rw [hbase, List.mem_append]
    rintro (hmem | hmem)
    · exact notMem_of_isFileName hname (Path.splitSuffix_subset name.toList hmem)
    · exact absurd hmem (by decide)

/-- The directories of a module and the name of its binding bring no null character. -/
theorem hasNull_bindingPath (hnamed : disk.tree.isNamed = true)
    (h : scan disk selection root sourceDirectory = .ok sources) (hsource : source ∈ sources)
    (outputRoot : Path) :
    hasNull (source.bindingPath outputRoot).parent = hasNull outputRoot ∧
      hasNull (source.bindingPath outputRoot) = hasNull outputRoot := by
  obtain ⟨name, -, -, hparts, -, -⟩ := scan_mem hnamed h hsource
  have hdown : ".." ∉ (Path.mk .current []).parts := List.not_mem_nil
  have hbase : (source.baseName ++ ".ts").toList.contains '\x00' = false := by
    have hname := (bindingPath_down hnamed h hsource hdown).2
    rwa [← Bool.not_eq_true, List.contains_eq_mem, decide_eq_true_eq]
  have hinside : source.directory.any (fun part => part.toList.contains '\x00') = false := by
    rw [List.any_eq_false]
    intro part hpart
    rw [List.contains_eq_mem, decide_eq_true_eq]
    exact notMem_of_isFileName (hparts part hpart)
  have hparent : hasNull (source.bindingPath outputRoot).parent = hasNull outputRoot := by
    rw [SourceModule.bindingPath, SourceModule.relativeDirectory, Path.join_parts_of_current, Path.child,
      Path.parent, hasNull, List.dropLast_concat, List.any_append, hinside, Bool.or_false, hasNull]
  refine ⟨hparent, ?_⟩
  rw [← hparent, hasNull, SourceModule.bindingPath_parts, List.any_append, List.any_cons, List.any_nil,
    hbase, Bool.or_false, Bool.or_false, hasNull]

/-- A binding whose directory can be made has a plain path. -/
theorem bindingPath_isPlain (hnamed : disk.tree.isNamed = true) (hcurrent : disk.HasCurrent)
    (h : scan disk selection root sourceDirectory = .ok sources) (hsource : source ∈ sources)
    {outputRoot : Path} (hdown : ".." ∉ outputRoot.parts)
    (hmade : (disk.makeDirectories (source.bindingPath outputRoot).parent).2 = none) :
    IsPlain (source.bindingPath outputRoot) := by
  obtain ⟨hbinding, hname⟩ := bindingPath_down hnamed h hsource hdown
  have hparent := Disk.isDirectory_makeDirectories hcurrent hmade
  have hnull := Disk.hasNull_eq_false_iff.1 (Disk.isDirectory_iff.1 hparent).1
  refine ⟨hbinding, Disk.hasNull_eq_false_iff.2 ?_⟩
  intro part hpart
  rw [SourceModule.bindingPath_parts, List.mem_append, List.mem_singleton] at hpart
  rcases hpart with habove | rfl
  · exact hnull part habove
  · exact hname

/-- The place of a binding ends in its name, wherever its root leads. -/
theorem SourceModule.place_bindingPath (source : SourceModule) (outputRoot : Path) (disk : Disk) :
    disk.place (source.bindingPath outputRoot) =
      disk.place (outputRoot.join source.relativeDirectory) ++ [source.baseName ++ ".ts"] := by
  have hname : source.baseName ++ ".ts" ≠ ".." := by
    intro heq
    have hletter := congrArg (fun text => text.toList.getLast?) heq
    simp at hletter
  exact Disk.place_child disk (outputRoot.join source.relativeDirectory) hname

/-- No binding is in the place of a source. -/
theorem place_path_ne (hnamed : disk.tree.isNamed = true) {excluded : List String}
    (h : scan disk (.of (Language.all.flatMap Language.suffixes) excluded) root sourceDirectory =
      .ok sources) (hsource : source ∈ sources) (other : SourceModule) (outputRoot : Path) :
    disk.place source.path ≠ disk.place (other.bindingPath outputRoot) := by
  obtain ⟨name, hpath, -, -, hname, hsuffix⟩ := scan_mem hnamed h hsource
  intro heq
  rw [hpath, Disk.place_child disk _ (ne_of_isFileName hname), other.place_bindingPath] at heq
  obtain ⟨-, rfl⟩ := List.append_singleton_inj.1 heq
  rw [not_hasSuffix_bindingName] at hsuffix
  exact absurd hsuffix (by simp)

end FfiBindings
