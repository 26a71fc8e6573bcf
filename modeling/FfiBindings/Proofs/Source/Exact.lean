import FfiBindings.Proofs.Source.Discovery
import FfiBindings.Proofs.Tree.Likeness

/-!
Discovery against its meaning. A file below the source directory is a source when its name has a source suffix, no rule
holds for it, and no directory between the source directory and the file is a store of other files or one that a rule
holds for (`IsSource`). All of this is said of spelled paths, seen from the library root; the walk puts the texts of
these paths together on its own (`rulePath_eq`) and leaves out whole directories, and comes to the same
(`finds_iff`). A scan lists exactly the sources, each once, in the order of the texts of their paths, so the order in
which directories list their entries does not matter (`scan_exact`).
-/

set_option autoImplicit false
set_option relaxedAutoImplicit false

namespace FfiBindings

/-! ### The texts of paths -/

namespace Path

theorem toText_child {path : Path} (h : path.parts ≠ []) (name : String) :
    (path.child name).toText = path.toText ++ "/" ++ name := by
  have hparts (parts : List String) (hne : parts ≠ []) :
      "/".intercalate (parts ++ [name]) = "/".intercalate parts ++ "/" ++ name := by
    induction parts with
    | nil => exact absurd rfl hne
    | cons part rest ih =>
      cases rest with
      | nil => simp
      | cons next rest =>
        have hrest := ih (List.cons_ne_nil next rest)
        rw [List.cons_append] at hrest
        simp only [List.cons_append, String.intercalate_cons_cons, hrest, String.append_assoc]
  rw [toText, toText, child, if_neg (by simp), if_neg (by simp [h]), hparts path.parts h]
  simp only [String.append_assoc]

/-- Two ways down from one directory have different texts. -/
theorem eq_of_toText_append {anchor : Anchor} {front back other : List String}
    (hback : ∀ part ∈ back, isPlainPart part = true) (hother : ∀ part ∈ other, isPlainPart part = true)
    (hne : back ≠ []) (hnonempty : other ≠ [])
    (h : (Path.mk anchor (front ++ back)).toText = (Path.mk anchor (front ++ other)).toText) : back = other := by
  have hsame : "/".intercalate (front ++ back) = "/".intercalate (front ++ other) := by
    rw [toText, toText, if_neg (by simp [hne]), if_neg (by simp [hnonempty])] at h
    exact (String.append_right_inj anchor.text).1 h
  clear h
  induction front with
  | nil =>
    have hpath : (Path.mk .current back).toText = (Path.mk .current other).toText := by
      rw [toText, toText, if_neg (by simp [hne]), if_neg (by simp [hnonempty])]
      exact (String.append_right_inj "").2 hsame
    exact congrArg parts (eq_of_toText_eq hback hother hpath)
  | cons part front ih =>
    obtain ⟨first, rest, hfirst⟩ := List.exists_cons_of_ne_nil (List.append_ne_nil_of_right_ne_nil front hne)
    obtain ⟨second, more, hsecond⟩ := List.exists_cons_of_ne_nil (List.append_ne_nil_of_right_ne_nil front hnonempty)
    refine ih ?_
    rw [List.cons_append, List.cons_append, hfirst, hsecond, String.intercalate_cons_cons,
      String.intercalate_cons_cons] at hsame
    rw [hfirst, hsecond]
    exact (String.append_right_inj _).1 hsame

end Path

/-! ### What a walk finds -/

namespace Selection

/-- A walk takes a file and enters every directory on the way down to it. -/
theorem finds_iff (selection : Selection) (root : Path) (above : List String) (location : Location) :
    selection.finds root above location = true ↔
      ∃ directory name, location = directory ++ [name] ∧
        selection.takes (root.join ⟨.current, above ++ directory⟩) name = true ∧
        ∀ front part back, directory = front ++ part :: back →
          selection.enters (root.join ⟨.current, above ++ front⟩) part = true := by
  induction location generalizing above with
  | nil =>
    constructor
    · intro h
      exact absurd rfl (ne_nil_of_finds h)
    · rintro ⟨directory, name, hlocation, -⟩
      exact absurd hlocation (by simp)
  | cons first below ih =>
    by_cases hbelow : below = []
    · subst hbelow
      constructor
      · intro h
        refine ⟨[], first, rfl, by rwa [List.append_nil], ?_⟩
        intro front part back hdirectory
        exact absurd hdirectory (by simp)
      · rintro ⟨directory, name, hlocation, htakes, -⟩
        obtain ⟨rfl, rfl⟩ : [] = directory ∧ first = name := List.append_singleton_inj.1 hlocation
        rwa [List.append_nil] at htakes
    · rw [finds_cons _ _ _ _ hbelow, Bool.and_eq_true, ih]
      constructor
      · rintro ⟨henters, directory, name, rfl, htakes, hall⟩
        refine ⟨first :: directory, name, rfl, ?_, ?_⟩
        · rwa [List.append_assoc, List.singleton_append] at htakes
        · intro front part back hdirectory
          cases front with
          | nil =>
            obtain ⟨rfl, -⟩ := List.cons.inj hdirectory
            rwa [List.append_nil]
          | cons next front =>
            obtain ⟨rfl, hrest⟩ := List.cons.inj hdirectory
            have hpart := hall front part back hrest
            rwa [List.append_assoc, List.singleton_append] at hpart
      · rintro ⟨directory, name, hlocation, htakes, hall⟩
        cases directory with
        | nil => exact absurd (List.cons.inj hlocation).2 hbelow
        | cons next directory =>
          obtain ⟨rfl, rfl⟩ := List.cons.inj hlocation
          have henters := hall [] first directory rfl
          rw [List.append_nil] at henters
          refine ⟨henters, directory, name, rfl, ?_, ?_⟩
          · rwa [List.append_assoc, List.singleton_append]
          · intro front part back hdirectory
            have hpart := hall (first :: front) part back (by rw [hdirectory, List.cons_append])
            rwa [List.append_assoc, List.singleton_append]

/-- The text that the rules are asked about is the text of the path, as long as the way to the source directory has a
part. -/
theorem rulePath_eq {relative : Path} (h : relative.parts ≠ []) (directory : List String) (name : String) :
    rulePath (relative.join ⟨.current, directory⟩) name =
      ((relative.join ⟨.current, directory⟩).child name).toText := by
  rw [rulePath, Path.toText_child]
  rw [Path.join_parts_of_current]
  exact List.append_ne_nil_of_left_ne_nil h directory

end Selection

/-! ### Sources -/

/-- None of the excluded lines states a rule that holds for the path, seen from the library root. -/
def IsKept (excluded : List String) (root path : Path) (isDirectory : Bool) : Prop :=
  ∃ relative, path.relativeTo root = .ok relative ∧
    ∀ line ∈ excluded, ∀ rule, IgnoreRule.ofText? line = some rule →
      rule.applies relative.toText isDirectory = false

/-- A file below the source root that belongs to the library. -/
structure IsSource (disk : Disk) (suffixes excluded : List String) (root sourceRoot : Path)
    (directory : List String) (name : String) : Prop where
  isFile : ∃ tree, disk.find? sourceRoot = some (.directory tree) ∧ tree.FileAt (directory ++ [name])
  hasSuffix : ∃ suffix ∈ suffixes, (Text.lower suffix).toList <:+ (Text.lower name).toList
  isKept : IsKept excluded root ((sourceRoot.join ⟨.current, directory⟩).child name) false
  isEntered : ∀ front part back, directory = front ++ part :: back →
    part ∉ Selection.storeNames ∧ IsKept excluded root ((sourceRoot.join ⟨.current, front⟩).child part) true

section Sources

variable {disk : Disk} {suffixes excluded : List String} {root : Path} {sourceDirectory : String}
  {sources : List SourceModule} {source : SourceModule}

theorem Selection.hasSuffix_of_iff {name : String} :
    (Selection.of suffixes excluded).hasSuffix name = true ↔
      ∃ suffix ∈ suffixes, (Text.lower suffix).toList <:+ (Text.lower name).toList := by
  simp only [hasSuffix, Selection.of, List.any_map, List.any_eq_true, Function.comp_apply,
    List.isSuffixOf_iff_suffix]

theorem Selection.ignores_of_eq_false_iff {text : String} {isDirectory : Bool} :
    (Selection.of suffixes excluded).ignores text isDirectory = false ↔
      ∀ line ∈ excluded, ∀ rule, IgnoreRule.ofText? line = some rule → rule.applies text isDirectory = false := by
  simp only [ignores, Selection.of, List.any_eq_false, List.mem_filterMap, Bool.not_eq_true]
  constructor
  · intro h line hline rule hrule
    exact h rule ⟨line, hline, hrule⟩
  · rintro h rule ⟨line, hline, hrule⟩
    exact h line hline rule hrule

/-- A source directory that is spelled below the root is seen from it as it is spelled. -/
theorem relativeTo_joinText (hanchor : (Path.ofText sourceDirectory).anchor = .current) :
    (root.joinText sourceDirectory).relativeTo root = .ok (Path.ofText sourceDirectory) := by
  rw [Path.joinText, Path.join, if_pos hanchor, Path.relativeTo, if_pos (by simp), List.drop_left, ← hanchor]

theorem relativeTo_below (hanchor : (Path.ofText sourceDirectory).anchor = .current) (directory : List String)
    (name : String) :
    (((root.joinText sourceDirectory).join ⟨.current, directory⟩).child name).relativeTo root =
      .ok (((Path.ofText sourceDirectory).join ⟨.current, directory⟩).child name) := by
  have hjoined : root.joinText sourceDirectory = ⟨root.anchor, root.parts ++ (Path.ofText sourceDirectory).parts⟩ := by
    rw [Path.joinText, Path.join, if_pos hanchor]
  rw [hjoined, Path.relativeTo, if_pos]
  · simp only [Path.join_parts_of_current, Path.child, List.append_assoc, List.drop_left, hanchor]
  · simp only [Path.join_parts_of_current, Path.child, List.append_assoc, decide_true, Bool.true_and,
      List.isPrefixOf_iff_prefix]
    exact List.prefix_append _ _

theorem isKept_iff (suffixes : List String) (hanchor : (Path.ofText sourceDirectory).anchor = .current)
    (hparts : (Path.ofText sourceDirectory).parts ≠ []) {directory : List String} {name : String} {isDirectory : Bool} :
    IsKept excluded root (((root.joinText sourceDirectory).join ⟨.current, directory⟩).child name) isDirectory ↔
      (Selection.of suffixes excluded).ignores
        (Selection.rulePath ((Path.ofText sourceDirectory).join ⟨.current, directory⟩) name) isDirectory = false := by
  rw [Selection.ignores_of_eq_false_iff, Selection.rulePath_eq hparts, IsKept, relativeTo_below hanchor]
  constructor
  · rintro ⟨relative, hrelative, hkept⟩
    obtain rfl := Except.ok.inj hrelative
    exact hkept
  · intro hkept
    exact ⟨_, rfl, hkept⟩

/-- A walk from the source directory finds exactly the sources. -/
theorem finds_iff_isSource {tree : Tree} (hanchor : (Path.ofText sourceDirectory).anchor = .current)
    (hparts : (Path.ofText sourceDirectory).parts ≠ [])
    (hfound : disk.find? (root.joinText sourceDirectory) = some (.directory tree)) {directory : List String}
    {name : String} :
    ((Selection.of suffixes excluded).finds (Path.ofText sourceDirectory) [] (directory ++ [name]) = true ∧
        tree.FileAt (directory ++ [name])) ↔
      IsSource disk suffixes excluded root (root.joinText sourceDirectory) directory name := by
  rw [Selection.finds_iff]
  constructor
  · rintro ⟨⟨further, last, hlocation, htakes, hall⟩, hfile⟩
    obtain ⟨rfl, rfl⟩ := List.append_singleton_inj.1 hlocation
    rw [List.nil_append, Selection.takes, Bool.and_eq_true, Bool.not_eq_true'] at htakes
    refine ⟨⟨tree, hfound, hfile⟩, Selection.hasSuffix_of_iff.1 htakes.1,
      (isKept_iff suffixes hanchor hparts).2 htakes.2, ?_⟩
    intro front part back hdirectory
    have henters := hall front part back hdirectory
    rw [List.nil_append, Selection.enters, Bool.and_eq_true, Bool.not_eq_true', Bool.not_eq_true',
      List.contains_eq_mem, decide_eq_false_iff_not] at henters
    exact ⟨henters.1, (isKept_iff suffixes hanchor hparts).2 henters.2⟩
  · intro h
    obtain ⟨inside, hinside, hfile⟩ := h.isFile
    obtain rfl : tree = inside := Entry.directory.inj (Option.some.inj (hfound.symm.trans hinside))
    refine ⟨⟨directory, name, rfl, ?_, ?_⟩, hfile⟩
    · rw [List.nil_append, Selection.takes, Bool.and_eq_true, Bool.not_eq_true']
      exact ⟨Selection.hasSuffix_of_iff.2 h.hasSuffix, (isKept_iff suffixes hanchor hparts).1 h.isKept⟩
    · intro front part back hdirectory
      obtain ⟨hstore, hkept⟩ := h.isEntered front part back hdirectory
      rw [List.nil_append, Selection.enters, Bool.and_eq_true, Bool.not_eq_true', Bool.not_eq_true',
        List.contains_eq_mem, decide_eq_false_iff_not]
      exact ⟨hstore, (isKept_iff suffixes hanchor hparts).1 hkept⟩

/-! ### Scans -/

theorem mem_modulesIn_iff_isSource {tree : Tree} (hanchor : (Path.ofText sourceDirectory).anchor = .current)
    (hparts : (Path.ofText sourceDirectory).parts ≠ []) (hdistinct : tree.isDistinct = true)
    (hfound : disk.find? (root.joinText sourceDirectory) = some (.directory tree)) :
    source ∈ modulesIn (.of suffixes excluded) (root.joinText sourceDirectory) (Path.ofText sourceDirectory) tree ↔
      ∃ directory name,
        source = ⟨((root.joinText sourceDirectory).join ⟨.current, directory⟩).child name, directory⟩ ∧
        IsSource disk suffixes excluded root (root.joinText sourceDirectory) directory name := by
  rw [mem_modulesIn_iff hdistinct]
  constructor
  · rintro ⟨location, rfl, hfinds, hfile⟩
    obtain ⟨directory, name, rfl, -⟩ := Selection.hasSuffix_of_finds hfinds
    exact ⟨directory, name, moduleAt_concat _ directory name,
      (finds_iff_isSource hanchor hparts hfound).1 ⟨hfinds, hfile⟩⟩
  · rintro ⟨directory, name, rfl, hsource⟩
    obtain ⟨hfinds, hfile⟩ := (finds_iff_isSource hanchor hparts hfound).2 hsource
    exact ⟨directory ++ [name], (moduleAt_concat _ directory name).symm, hfinds, hfile⟩

/-- The modules of a proper tree come in strictly increasing order of the texts of their paths. -/
theorem pairwise_modulesIn {selection : Selection} {sourceRoot relative : Path} {tree : Tree}
    (hproper : tree.isProper = true) :
    (modulesIn selection sourceRoot relative tree).Pairwise fun source other =>
      source.path.toText < other.path.toText := by
  have hdistinct := Tree.isDistinct_of_isProper hproper
  have hsorted : (modulesIn selection sourceRoot relative tree).Pairwise fun source other =>
      pathLe source other = true := pairwise_mergeSort_pathLe _
  have hnodup := nodup_modulesIn selection sourceRoot relative hdistinct
  refine (hsorted.and hnodup).imp_of_mem ?_
  intro source other hsource hother hboth
  obtain ⟨location, rfl, hfinds, content, mode, hfile⟩ := (mem_modulesIn_iff hdistinct).1 hsource
  obtain ⟨further, rfl, hfindsOther, contentOther, modeOther, hfileOther⟩ := (mem_modulesIn_iff hdistinct).1 hother
  by_contra hnot
  have htext := String.le_antisymm (pathLe_iff.1 hboth.1) (String.not_lt.1 hnot)
  refine hboth.2 ?_
  rw [moduleAt, moduleAt, Path.join_parts_of_current, Path.join_parts_of_current] at htext
  refine congrArg (moduleAt sourceRoot) (Path.eq_of_toText_append ?_ ?_ ?_ ?_ htext)
  · intro part hpart
    exact isPlainPart_of_isEntryName (Tree.isEntryName_of_sight hproper hfile part hpart)
  · intro part hpart
    exact isPlainPart_of_isEntryName (Tree.isEntryName_of_sight hproper hfileOther part hpart)
  · exact Selection.ne_nil_of_finds hfinds
  · exact Selection.ne_nil_of_finds hfindsOther

theorem exists_fileAt_iff {disk : Disk} {sourceRoot : Path} {location : Location} :
    (∃ tree, disk.find? sourceRoot = some (.directory tree) ∧ tree.FileAt location) ↔
      disk.isDirectory sourceRoot = true ∧ disk.tree.FileAt (disk.place sourceRoot ++ location) := by
  constructor
  · rintro ⟨tree, hfound, hfile⟩
    refine ⟨?_, ?_⟩
    · rw [Disk.isDirectory, hfound]
      rfl
    · rwa [Tree.FileAt, Tree.sight?_append (Disk.find?_directory hfound)]
  · rintro ⟨hdirectory, hfile⟩
    obtain ⟨tree, hfound⟩ := Disk.exists_of_isDirectory hdirectory
    refine ⟨tree, hfound, ?_⟩
    rwa [Tree.FileAt, Tree.sight?_append (Disk.find?_directory hfound)] at hfile

/-- Disks that show the same have the same sources. -/
theorem IsSource.of_looksLike {disk other : Disk} {root sourceRoot : Path} {directory : List String} {name : String}
    (halike : Disk.LooksLike [] disk other)
    (h : IsSource disk suffixes excluded root sourceRoot directory name) :
    IsSource other suffixes excluded root sourceRoot directory name := by
  obtain ⟨hdirectory, hfile⟩ := exists_fileAt_iff.1 h.isFile
  refine ⟨exists_fileAt_iff.2 ⟨halike.keeps.isDirectory hdirectory, ?_⟩, h.hasSuffix, h.isKept, h.isEntered⟩
  rw [halike.keeps.place_eq]
  exact (halike.fileAt_iff _).2 hfile

/-- A scan lists the sources in the order of the texts of their paths. -/
theorem scan_sources (suffixes excluded : List String) (hproper : disk.tree.isProper = true)
    (hroot : disk.isDirectory (root.absolute disk.current) = true)
    (hanchor : (Path.ofText sourceDirectory).anchor = .current) (hparts : (Path.ofText sourceDirectory).parts ≠ []) :
    ∃ sources, scan disk (.of suffixes excluded) root sourceDirectory = .ok sources ∧
      (sources.Pairwise fun source other => source.path.toText < other.path.toText) ∧
      ∀ source, source ∈ sources ↔ ∃ directory name,
        source = ⟨(((root.absolute disk.current).joinText sourceDirectory).join ⟨.current, directory⟩).child name,
          directory⟩ ∧
        IsSource disk suffixes excluded (root.absolute disk.current)
          ((root.absolute disk.current).joinText sourceDirectory) directory name := by
  cases hthere : disk.isDirectory ((root.absolute disk.current).joinText sourceDirectory) with
  | false =>
    refine ⟨[], scan_eq_nil hroot hthere, .nil, ?_⟩
    intro source
    constructor
    · intro hsource
      exact absurd hsource List.not_mem_nil
    · rintro ⟨directory, name, -, hsource⟩
      rw [(exists_fileAt_iff.1 hsource.isFile).1] at hthere
      exact absurd hthere (by simp)
  | true =>
    obtain ⟨tree, hfound⟩ := Disk.exists_of_isDirectory hthere
    have htree := (Tree.isEntryName_of_find? hproper (Disk.find?_directory hfound)).2 tree rfl
    exact ⟨_, scan_eq_modulesIn hroot hfound (relativeTo_joinText hanchor), pairwise_modulesIn htree, fun source =>
      mem_modulesIn_iff_isSource hanchor hparts (Tree.isDistinct_of_isProper htree) hfound⟩

/-- Discovery is exact: a scan of a source directory that is spelled below the library root succeeds, and its modules
are the sources, in strictly increasing order of the texts of their paths. A disk whose directories list the same
entries in another order has the same modules. -/
theorem scan_exact (suffixes excluded : List String) (hproper : disk.tree.isProper = true)
    (hroot : disk.isDirectory (root.absolute disk.current) = true)
    (hanchor : (Path.ofText sourceDirectory).anchor = .current) (hparts : (Path.ofText sourceDirectory).parts ≠ []) :
    ∃ sources, scan disk (.of suffixes excluded) root sourceDirectory = .ok sources ∧
      (sources.Pairwise fun source other => source.path.toText < other.path.toText) ∧
      (∀ source, source ∈ sources ↔ ∃ directory name,
        source = ⟨(((root.absolute disk.current).joinText sourceDirectory).join ⟨.current, directory⟩).child name,
          directory⟩ ∧
        IsSource disk suffixes excluded (root.absolute disk.current)
          ((root.absolute disk.current).joinText sourceDirectory) directory name) ∧
      ∀ other : Disk, other.tree.isProper = true → Disk.LooksLike [] disk other →
        scan other (.of suffixes excluded) root sourceDirectory = .ok sources := by
  obtain ⟨sources, hscan, hsorted, hmem⟩ := scan_sources suffixes excluded hproper hroot hanchor hparts
  refine ⟨sources, hscan, hsorted, hmem, ?_⟩
  intro other hother halike
  have hcurrent : root.absolute other.current = root.absolute disk.current := by rw [halike.current]
  have hrootOther : other.isDirectory (root.absolute other.current) = true := by
    rw [hcurrent]
    exact halike.keeps.isDirectory hroot
  obtain ⟨more, hscanOther, hsortedOther, hmemOther⟩ :=
    scan_sources suffixes excluded hother hrootOther hanchor hparts
  rw [hcurrent] at hmemOther
  have hsame (source : SourceModule) : source ∈ more ↔ source ∈ sources := by
    rw [hmem, hmemOther]
    constructor
    · rintro ⟨directory, name, heq, hsource⟩
      exact ⟨directory, name, heq, hsource.of_looksLike halike.symm⟩
    · rintro ⟨directory, name, heq, hsource⟩
      exact ⟨directory, name, heq, hsource.of_looksLike halike⟩
  have hnodup {found : List SourceModule}
      (hfound : found.Pairwise fun source other => source.path.toText < other.path.toText) : found.Nodup := by
    refine hfound.imp ?_
    intro source other hlt heq
    subst heq
    exact absurd hlt (String.lt_irrefl _)
  have hperm := (List.perm_ext_iff_of_nodup (hnodup hsortedOther) (hnodup hsorted)).2 hsame
  have heq : more = sources := by
    refine hperm.eq_of_pairwise ?_ hsortedOther hsorted
    intro source other _ _ hlt hgt
    exact absurd (String.lt_trans hlt hgt) (String.lt_irrefl _)
  rw [hscanOther, heq]

end Sources

namespace Sample

def innerTree : Tree :=
  .file "b.rs" .empty 0o644 (.file "c.RS" .empty 0o644 .empty)

/-- A library of a source in a directory of its own, with excluded files and directories around it. -/
def scattered : Disk where
  tree := .directory "rs" (.directory "sub" innerTree (.file "b.rs" .empty 0o644
    (.directory "gen" innerTree (.directory "target" innerTree .empty)))) .empty

/-- The same library, whose directories list the same entries in another order. -/
def shuffled : Disk where
  tree := .directory "rs" (.directory "target" innerTree (.file "b.rs" .empty 0o644
    (.directory "gen" innerTree (.directory "sub" innerTree .empty)))) .empty

theorem shuffled_looksLike : Disk.LooksLike [] scattered shuffled := by
  refine ⟨rfl, rfl, fun location => .inl ?_⟩
  cases location with
  | nil => rfl
  | cons first below =>
    rw [Tree.sight?_cons, Tree.sight?_cons]
    by_cases hrs : "rs" = first
    · subst hrs
      cases below with
      | nil => rfl
      | cons name below =>
        simp only [scattered, shuffled, Tree.get?, if_true, Option.bind_some, Entry.sight?, Tree.sight?_cons]
        by_cases hsub : "sub" = name
        · subst hsub
          simp
        · by_cases htarget : "target" = name
          · subst htarget
            simp
          · simp only [hsub, htarget, if_false]
    · simp only [scattered, shuffled, Tree.get?, hrs, if_false]

theorem rules_eq : (Selection.of [".rs"] ["b*", "gen/"]).rules =
    [⟨"b*", false, false, false⟩, ⟨"gen", true, false, false⟩] := by
  decide +kernel

/-- What the two rules say of a path, part by part. -/
theorem ignores_eq {path : String} (isDirectory : Bool) (parts : List (List Char))
    (h : Path.splitSlashes path.toList = parts) :
    (Selection.of [".rs"] ["b*", "gen/"]).ignores path isDirectory =
      ((parts.any fun part => Text.globMatches "b*" (.ofList part)) ||
        (isDirectory && parts.any fun part => Text.globMatches "gen" (.ofList part))) := by
  cases isDirectory with
  | false => simp [Selection.ignores, rules_eq, IgnoreRule.applies, h]
  | true => simp [Selection.ignores, rules_eq, IgnoreRule.applies, h]

end Sample

/-- One file is found, in either order of the entries: the others are excluded by their names or stand below a directory
that is. -/
theorem scan_exact_scattered :
    Sample.scattered.tree.isProper = true ∧ Sample.shuffled.tree.isProper = true ∧
      Disk.LooksLike [] Sample.scattered Sample.shuffled ∧
      Sample.scattered.isDirectory ((Path.mk .root []).absolute Sample.scattered.current) = true ∧
      (Path.ofText "rs").anchor = .current ∧ (Path.ofText "rs").parts ≠ [] ∧
      ∃ sources, scan Sample.scattered (.of [".rs"] ["b*", "gen/"]) ⟨.root, []⟩ "rs" = .ok sources ∧
        scan Sample.shuffled (.of [".rs"] ["b*", "gen/"]) ⟨.root, []⟩ "rs" = .ok sources ∧
        ⟨⟨.root, ["rs", "sub", "c.RS"]⟩, ["sub"]⟩ ∈ sources ∧
        ∀ source ∈ sources, source.directory ≠ ["gen"] ∧ source.directory ≠ ["target"] := by
  have hproper : Sample.scattered.tree.isProper = true := by decide +kernel
  have hother : Sample.shuffled.tree.isProper = true := by decide +kernel
  have hroot : Sample.scattered.isDirectory ((Path.mk .root []).absolute Sample.scattered.current) = true := rfl
  have hanchor : (Path.ofText "rs").anchor = .current := by decide
  have hparts : (Path.ofText "rs").parts ≠ [] := by decide
  have hkept {directory : List String} {name : String} {isDirectory : Bool} :
      IsKept ["b*", "gen/"] ⟨.root, []⟩
          ((((Path.mk .root []).joinText "rs").join ⟨.current, directory⟩).child name) isDirectory ↔ _ :=
    isKept_iff [".rs"] hanchor hparts
  obtain ⟨sources, hscan, -, hmem, hagain⟩ := scan_exact [".rs"] ["b*", "gen/"] hproper hroot hanchor hparts
  refine ⟨hproper, hother, Sample.shuffled_looksLike, hroot, hanchor, hparts, sources, hscan,
    hagain _ hother Sample.shuffled_looksLike, ?_, ?_⟩
  · refine (hmem _).2 ⟨["sub"], "c.RS", by decide +kernel, ⟨⟨_, rfl, .empty, 0o644, rfl⟩, ?_, ?_, ?_⟩⟩
    · exact ⟨".rs", List.mem_singleton_self _, by decide +kernel⟩
    · refine hkept.2 ?_
      rw [Sample.ignores_eq _ [['r', 's'], ['s', 'u', 'b'], ['c', '.', 'R', 'S']] (by decide +kernel)]
      simp [Text.globMatches, Text.Glob.items, Text.Glob.matchItems, Text.Glob.Item.accepts]
    · intro front part back hdirectory
      obtain ⟨rfl, rfl, rfl⟩ : front = [] ∧ part = "sub" ∧ back = [] := by
        cases front with
        | nil =>
          obtain ⟨rfl, rfl⟩ := List.cons.inj hdirectory
          exact ⟨rfl, rfl, rfl⟩
        | cons first front => exact absurd (List.cons.inj hdirectory).2 (by simp)
      refine ⟨by decide, hkept.2 ?_⟩
      rw [Sample.ignores_eq _ [['r', 's'], ['s', 'u', 'b']] (by decide +kernel)]
      simp [Text.globMatches, Text.Glob.items, Text.Glob.matchItems, Text.Glob.Item.accepts]
  · intro source hsource
    obtain ⟨directory, name, rfl, hin⟩ := (hmem source).1 hsource
    constructor
    · rintro rfl
      have hgen := hkept.1 (hin.isEntered [] "gen" [] rfl).2
      rw [Sample.ignores_eq _ [['r', 's'], ['g', 'e', 'n']] (by decide +kernel)] at hgen
      simp [Text.globMatches, Text.Glob.items, Text.Glob.matchItems, Text.Glob.Item.accepts] at hgen
    · rintro rfl
      exact absurd (hin.isEntered [] "target" [] rfl).1 (by decide)

end FfiBindings
