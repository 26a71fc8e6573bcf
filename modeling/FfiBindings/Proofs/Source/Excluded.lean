import FfiBindings.Proofs.Source.Exact
import FfiBindings.Proofs.Source.Scan

/-!
What the exclude rules keep out of a scan. A walk asks the rules about every file that it takes and about every
directory that it enters below the source directory. It does not ask them about the source directory itself and the
directories above it, and where the source directory is the library root it asks about the entries of the root by a
text that begins with a dot and a slash, so a rule for whole paths misses them (`excludesBy_of_passed`). A module of a
scan is excluded by some rule for one of these two reasons alone (`scan_excluded_iff`).
-/

set_option autoImplicit false
set_option relaxedAutoImplicit false

namespace FfiBindings

/-! ### Rules and the ways that they hold for -/

/-- Some rule of the given sort holds for what the parts lead to from the library root. -/
def ExcludesBy (sort : IgnoreRule → Prop) (excluded parts : List String) (isDirectory : Bool) : Prop :=
  ∃ line ∈ excluded, ∃ rule, IgnoreRule.ofText? line = some rule ∧ sort rule ∧
    rule.applies (Path.mk .current parts).toText isDirectory = true

abbrev Excludes : List String → List String → Bool → Prop :=
  ExcludesBy fun _ => True

theorem excludes_iff (suffixes : List String) {excluded parts : List String} {isDirectory : Bool} :
    Excludes excluded parts isDirectory ↔
      (Selection.of suffixes excluded).ignores (Path.mk .current parts).toText isDirectory = true := by
  rw [← not_iff_not, Bool.not_eq_true, Selection.ignores_of_eq_false_iff]
  simp [ExcludesBy]

/-- The rule is matched against whole paths, not against each part of a path. -/
def IgnoreRule.IsForPaths (rule : IgnoreRule) : Prop :=
  rule.anchored = true ∨ rule.hasSlash = true

/-- The way leads to a file that some rule holds for, or through a directory that some rule holds for; the library root
is such a directory too. -/
def IsExcluded (excluded way : List String) : Prop :=
  Excludes excluded way false ∨ ∃ above below, way = above ++ below ∧ below ≠ [] ∧ Excludes excluded above true

/-- Some rule holds for something on the way that a walk does not ask about: for the source directory or a directory
above it, or for an entry of the library root where that is the source directory. -/
inductive IsUnasked (excluded : List String) (sourceDirectory : Path) (way : List String) : Prop
  | above {front back : List String} (hspelled : sourceDirectory.parts = front ++ back)
      (hholds : Excludes excluded front true)
  | top {name : String} {below : List String} (hspelled : sourceDirectory.parts = []) (hway : way = name :: below)
      (hholds : ExcludesBy IgnoreRule.IsForPaths excluded [name] (!below.isEmpty))

/-- A rule for single parts holds for an entry of the root also behind a dot and a slash. -/
theorem IgnoreRule.applies_dotSlash {rule : IgnoreRule} (hsort : ¬rule.IsForPaths) {name : String} {isDirectory : Bool}
    (h : rule.applies name isDirectory = true) : rule.applies ("./" ++ name) isDirectory = true := by
  have hparts : (rule.anchored || rule.hasSlash) = false := by
    rw [IsForPaths, not_or, Bool.not_eq_true, Bool.not_eq_true] at hsort
    rw [hsort.1, hsort.2, Bool.or_self]
  have hsplit : Path.splitSlashes ("./" ++ name).toList = ['.'] :: Path.splitSlashes name.toList := by
    have hchars : ("./" ++ name).toList = ['.'] ++ '/' :: name.toList := String.toList_append
    rw [hchars, Path.splitSlashes_append (by decide)]
  rw [applies, hparts] at h ⊢
  split at h
  · exact absurd h (by simp)
  · rename_i hon
    rw [if_neg hon, hsplit]
    simp only [Bool.false_eq_true, if_false, List.any_cons] at h ⊢
    rw [h, Bool.or_true]

theorem Path.toText_singleton (name : String) : (Path.mk .current [name]).toText = name := by
  simp [toText, Anchor.text]

theorem Selection.rulePath_top (name : String) : rulePath ⟨.current, []⟩ name = "./" ++ name := by
  have hdot : (Path.mk .current []).toText = "." := rfl
  rw [rulePath, hdot]
  rfl

/-! ### What a walk asks -/

section Walk

variable {suffixes excluded : List String} {relative : Path} {directory : List String} {name : String}

/-- An entry that the rules let pass is excluded only where it is one of the library root's, and by a rule for whole
paths. -/
theorem excludesBy_of_passed {parts : List String} {isDirectory : Bool}
    (hpassed : (Selection.of suffixes excluded).ignores (Selection.rulePath ⟨.current, parts⟩ name) isDirectory = false)
    (h : Excludes excluded (parts ++ [name]) isDirectory) :
    parts = [] ∧ ExcludesBy IgnoreRule.IsForPaths excluded [name] isDirectory := by
  obtain ⟨line, hline, rule, hrule, -, hholds⟩ := h
  have hnot := Selection.ignores_of_eq_false_iff.1 hpassed line hline rule hrule
  by_cases hparts : parts = []
  · subst hparts
    refine ⟨rfl, line, hline, rule, hrule, ?_, hholds⟩
    by_contra hsort
    rw [List.nil_append, Path.toText_singleton] at hholds
    rw [Selection.rulePath_top, IgnoreRule.applies_dotSlash hsort hholds] at hnot
    exact absurd hnot (by simp)
  · have htext : ((Path.mk .current parts).child name).toText = Selection.rulePath ⟨.current, parts⟩ name :=
      Path.toText_child hparts name
    have hchild : Path.mk .current (parts ++ [name]) = (Path.mk .current parts).child name := rfl
    rw [hchild, htext, hnot] at hholds
    exact absurd hholds (by simp)

/-- A directory on the way to an entry, but not the entry's own name, is one that the walk entered. -/
theorem exists_eq_of_entered {front below : List String} {part : String} (hbelow : below ≠ [])
    (h : directory ++ [name] = front.concat part ++ below) : ∃ back, directory = front ++ part :: back := by
  obtain ⟨back, last, rfl⟩ := (List.eq_nil_or_concat below).resolve_left hbelow
  rw [List.concat_eq_append, List.concat_eq_append, ← List.append_assoc] at h
  refine ⟨back, ?_⟩
  rw [(List.append_inj' h rfl).1, List.append_assoc, List.singleton_append]

/-- What the walk takes is excluded exactly for something that the walk does not ask about. -/
theorem isExcluded_iff_isUnasked (hanchor : relative.anchor = .current)
    (htakes : (Selection.of suffixes excluded).takes (relative.join ⟨.current, directory⟩) name = true)
    (henters : ∀ front part back, directory = front ++ part :: back →
      (Selection.of suffixes excluded).enters (relative.join ⟨.current, front⟩) part = true) :
    IsExcluded excluded (relative.parts ++ (directory ++ [name])) ↔
      IsUnasked excluded relative (relative.parts ++ (directory ++ [name])) := by
  have hjoined (below : List String) : relative.join ⟨.current, below⟩ = ⟨.current, relative.parts ++ below⟩ := by
    rw [Path.join_parts_of_current, hanchor]
  constructor
  · rintro (hfile | ⟨above, below, hway, hbelow, hholds⟩)
    · rw [Selection.takes, Bool.and_eq_true, Bool.not_eq_true', hjoined] at htakes
      rw [← List.append_assoc] at hfile
      obtain ⟨hparts, htop⟩ := excludesBy_of_passed htakes.2 hfile
      obtain ⟨hspelled, rfl⟩ := List.append_eq_nil_iff.1 hparts
      exact .top hspelled (by rw [hspelled]; rfl) htop
    -- The excluded directory is one that the walk entered, or else the source directory or above it.
    · rcases List.append_eq_append_iff.1 hway with ⟨further, rfl, hrest⟩ | ⟨back, hspelled, -⟩
      · rcases List.eq_nil_or_concat further with rfl | ⟨front, part, rfl⟩
        · exact .above (List.append_nil _).symm (by rwa [List.append_nil] at hholds)
        · obtain ⟨back, hdirectory⟩ := exists_eq_of_entered hbelow hrest
          have henter := henters front part back hdirectory
          rw [Selection.enters, Bool.and_eq_true, Bool.not_eq_true', Bool.not_eq_true', hjoined] at henter
          rw [List.concat_eq_append, ← List.append_assoc] at hholds
          obtain ⟨hparts, htop⟩ := excludesBy_of_passed henter.2 hholds
          obtain ⟨hspelled, rfl⟩ := List.append_eq_nil_iff.1 hparts
          have htopmost : relative.parts ++ (directory ++ [name]) = part :: (back ++ [name]) := by
            rw [hspelled, hdirectory]
            rfl
          have hmore : (!(back ++ [name]).isEmpty) = true := by simp
          exact .top hspelled htopmost (by rwa [hmore])
      · exact .above hspelled hholds
  · rintro (@⟨front, back, hspelled, hholds⟩ | @⟨first, below, -, hway, line, hline, rule, hrule, -, hholds⟩)
    · refine .inr ⟨front, back ++ (directory ++ [name]), ?_, by simp, hholds⟩
      rw [hspelled, List.append_assoc]
    · have hentry : Excludes excluded [first] (!below.isEmpty) := ⟨line, hline, rule, hrule, trivial, hholds⟩
      rw [hway]
      cases below with
      | nil => exact .inl hentry
      | cons next below => exact .inr ⟨[first], next :: below, rfl, List.cons_ne_nil next below, hentry⟩

end Walk

/-! ### Scans -/

/-- A module of a scan is excluded, by the path that leads to it from the library root, exactly if a rule holds for
something on that path which the walk does not ask about: the source directory or a directory above it, or, where the
source directory is the library root, an entry of the root that a rule for whole paths names. -/
theorem scan_excluded_iff {disk : Disk} {root : Path} {sourceDirectory : String} (suffixes excluded : List String)
    (hproper : disk.tree.isProper = true) (hroot : disk.isDirectory (root.absolute disk.current) = true)
    (hanchor : (Path.ofText sourceDirectory).anchor = .current) :
    ∃ sources, scan disk (.of suffixes excluded) root sourceDirectory = .ok sources ∧
      ∀ source ∈ sources, ∃ way,
        source.path.relativeTo (root.absolute disk.current) = .ok ⟨.current, way⟩ ∧
        (IsExcluded excluded way ↔ IsUnasked excluded (Path.ofText sourceDirectory) way) := by
  cases hthere : disk.isDirectory ((root.absolute disk.current).joinText sourceDirectory) with
  | false => exact ⟨[], scan_eq_nil hroot hthere, fun source hsource => absurd hsource List.not_mem_nil⟩
  | true =>
    obtain ⟨tree, hfound⟩ := Disk.exists_of_isDirectory hthere
    have htree := (Tree.isEntryName_of_find? hproper (Disk.find?_directory hfound)).2 tree rfl
    refine ⟨_, scan_eq_modulesIn hroot hfound (relativeTo_joinText hanchor), ?_⟩
    intro source hsource
    obtain ⟨location, rfl, hfinds, -⟩ := (mem_modulesIn_iff (Tree.isDistinct_of_isProper htree)).1 hsource
    obtain ⟨directory, name, rfl, htakes, henters⟩ := (Selection.finds_iff _ _ _ _).1 hfinds
    refine ⟨(Path.ofText sourceDirectory).parts ++ (directory ++ [name]), ?_,
      isExcluded_iff_isUnasked hanchor htakes henters⟩
    rw [moduleAt_concat, relativeTo_below hanchor, Path.join_parts_of_current, Path.child, List.append_assoc, hanchor]

/-! ### Rules that spell names -/

namespace Text

/-- A pattern that holds no glob character matches itself alone. -/
theorem globMatches_plain {pattern text : String} (hplain : pattern.toList.any ['*', '?', '['].contains = false) :
    globMatches pattern text = true ↔ pattern = text := by
  rw [globMatches, ← String.toList_inj]
  generalize pattern.toList = cs at hplain ⊢
  generalize text.toList = ds
  induction cs generalizing ds with
  | nil => cases ds <;> simp [Glob.items, Glob.matchItems]
  | cons c cs ih =>
    rw [List.any_cons, Bool.or_eq_false_iff] at hplain
    obtain ⟨hfirst, hrest⟩ := hplain
    simp only [List.contains_eq_mem, List.mem_cons, List.not_mem_nil, or_false,
      decide_eq_false_iff_not, not_or] at hfirst
    have hitems : Glob.items (c :: cs) = .literal c :: Glob.items cs := by
      rw [Glob.items] <;> simp [hfirst]
    rw [hitems]
    cases ds with
    | nil => simp [Glob.matchItems]
    | cons d ds => simp [Glob.matchItems, Glob.Item.accepts, ih hrest]

end Text

namespace IgnoreRule

variable {name : String} (hne : name ≠ "") (hplain : name.toList.any ['*', '?', '['].contains = false)
include hne hplain

theorem applies_anchored {path : String} {isDirectory : Bool} :
    (IgnoreRule.mk name false true false).applies path isDirectory = true ↔ name = path := by
  simp [applies, hne, Text.globMatches_plain hplain]

theorem applies_directory {path : String} {isDirectory : Bool} :
    (IgnoreRule.mk name true false false).applies path isDirectory = true ↔
      isDirectory = true ∧ name.toList ∈ Path.splitSlashes path.toList := by
  have hpart (part : List Char) : Text.globMatches name (.ofList part) = true ↔ part = name.toList := by
    rw [Text.globMatches_plain hplain, ← String.toList_inj, String.toList_ofList, eq_comm]
  simp [applies, hne, hpart]

end IgnoreRule

namespace Sample

/-- A library of one file. -/
def rooted : Disk where
  tree := .file "a.rs" .empty 0o644 .empty

/-- A library of a file in the source directory and another in a directory below that. -/
def layered : Disk where
  tree := .directory "rs" (.file "a.rs" .empty 0o644
    (.directory "sub" (.file "b.rs" .empty 0o644 .empty) .empty)) .empty

theorem ignores_rooted {path : String} {isDirectory : Bool} :
    (Selection.of [".rs"] ["/a.rs"]).ignores path isDirectory = true ↔ "a.rs" = path := by
  have hrules : (Selection.of [".rs"] ["/a.rs"]).rules = [⟨"a.rs", false, true, false⟩] := by decide +kernel
  rw [Selection.ignores, hrules, List.any_cons, List.any_nil, Bool.or_false]
  exact IgnoreRule.applies_anchored (by decide) (by decide)

theorem ignores_layered {name path : String} {isDirectory : Bool} (h : name = "rs" ∨ name = "sub") :
    (Selection.of [".rs"] [name ++ "/"]).ignores path isDirectory = true ↔
      isDirectory = true ∧ name.toList ∈ Path.splitSlashes path.toList := by
  have hrules : (Selection.of [".rs"] [name ++ "/"]).rules = [⟨name, true, false, false⟩] := by
    rcases h with rfl | rfl <;> decide +kernel
  rw [Selection.ignores, hrules, List.any_cons, List.any_nil, Bool.or_false]
  rcases h with rfl | rfl <;> exact IgnoreRule.applies_directory (by decide) (by decide)

theorem scan_rooted : scan rooted (.of [".rs"] ["/a.rs"]) ⟨.root, []⟩ "." = .ok [⟨⟨.root, ["a.rs"]⟩, []⟩] := by
  have htakes : (Selection.of [".rs"] ["/a.rs"]).takes (Path.join ⟨.current, []⟩ ⟨.current, []⟩) "a.rs" = true := by
    rw [Selection.takes, Bool.and_eq_true, Bool.not_eq_true', ← Bool.not_eq_true, ignores_rooted]
    exact ⟨by decide +kernel, by decide +kernel⟩
  have hanchor : (Path.ofText ".").anchor = .current := by decide
  refine scan_of_sorted (by decide +kernel) rfl (relativeTo_joinText hanchor) ?_ (by decide +kernel)
  have hspelled : Path.ofText "." = ⟨.current, []⟩ := by decide
  rw [hspelled, rooted, Selection.walk, if_pos htakes, Selection.walk]
  decide +kernel

/-- A rule for the source directory or for the one below it keeps the walk out of the one below. -/
theorem scan_layered {name : String} (h : name = "rs" ∨ name = "sub") :
    scan layered (.of [".rs"] [name ++ "/"]) ⟨.root, []⟩ "rs" = .ok [⟨⟨.root, ["rs", "a.rs"]⟩, []⟩] := by
  have htakes : (Selection.of [".rs"] [name ++ "/"]).takes (Path.join ⟨.current, ["rs"]⟩ ⟨.current, []⟩) "a.rs" =
      true := by
    rw [Selection.takes, Bool.and_eq_true, Bool.not_eq_true', ← Bool.not_eq_true, ignores_layered h]
    exact ⟨Selection.hasSuffix_of_iff.2 ⟨".rs", List.mem_singleton_self _, by decide +kernel⟩, by simp⟩
  have henters : (Selection.of [".rs"] [name ++ "/"]).enters (Path.join ⟨.current, ["rs"]⟩ ⟨.current, []⟩) "sub" ≠
      true := by
    rw [← Bool.eq_false_iff, Selection.enters, Bool.and_eq_false_iff, Bool.not_eq_false', Bool.not_eq_false',
      ignores_layered h]
    rcases h with rfl | rfl <;> exact .inr ⟨rfl, by decide +kernel⟩
  have hanchor : (Path.ofText "rs").anchor = .current := by decide
  refine scan_of_sorted (by decide +kernel) rfl (relativeTo_joinText hanchor) ?_ (by decide +kernel)
  have hspelled : Path.ofText "rs" = ⟨.current, ["rs"]⟩ := by decide
  rw [hspelled, Selection.walk, if_pos htakes, Selection.walk, if_neg henters, Selection.walk]
  decide +kernel

end Sample

/-- A rule for a directory that is not above the module leaves it in. The module is not excluded, since the rule holds
for neither the library root nor the source directory. -/
theorem scan_excluded_iff_layered :
    Sample.layered.tree.isProper = true ∧
      Sample.layered.isDirectory ((Path.mk .root []).absolute Sample.layered.current) = true ∧
      (Path.ofText "rs").anchor = .current ∧
      scan Sample.layered (.of [".rs"] ["sub/"]) ⟨.root, []⟩ "rs" = .ok [⟨⟨.root, ["rs", "a.rs"]⟩, []⟩] ∧
      ¬IsExcluded ["sub/"] ["rs", "a.rs"] := by
  have hproper : Sample.layered.tree.isProper = true := by decide +kernel
  have hroot : Sample.layered.isDirectory ((Path.mk .root []).absolute Sample.layered.current) = true := rfl
  have hanchor : (Path.ofText "rs").anchor = .current := by decide
  have hspelled : (Path.ofText "rs").parts = ["rs"] := by decide
  have hmodule : scan Sample.layered (.of [".rs"] ["sub/"]) ⟨.root, []⟩ "rs" = _ := Sample.scan_layered (.inr rfl)
  refine ⟨hproper, hroot, hanchor, hmodule, ?_⟩
  obtain ⟨sources, hscan, hall⟩ := scan_excluded_iff [".rs"] ["sub/"] hproper hroot hanchor
  obtain rfl := Except.ok.inj (hmodule.symm.trans hscan)
  obtain ⟨way, hway, hiff⟩ := hall _ (List.mem_singleton_self _)
  obtain rfl : ["rs", "a.rs"] = way := congrArg Path.parts (Except.ok.inj hway)
  rw [hiff]
  rintro (@⟨front, back, hparts, hholds⟩ | ⟨hparts, -, -⟩)
  · rw [hspelled] at hparts
    have hfront : front = [] ∨ front = ["rs"] := by
      rcases front with _ | ⟨first, front⟩
      · exact .inl rfl
      · obtain ⟨rfl, hnil⟩ := List.cons.inj hparts
        exact .inr (by rw [(List.append_eq_nil_iff.1 hnil.symm).1])
    have hnone := ((excludes_iff [".rs"]).trans (Sample.ignores_layered (.inr rfl))).1 hholds
    rcases hfront with rfl | rfl
    · exact absurd hnone.2 (by decide +kernel)
    · exact absurd hnone.2 (by decide +kernel)
  · rw [hspelled] at hparts
    exact absurd hparts (by simp)

/-- Modules that are excluded: one that the root holds, by a rule for its whole path, and one in a source directory that
a rule excludes whole. The same rule keeps the walk out of the directory below. -/
theorem excluded_found :
    (scan Sample.rooted (.of [".rs"] ["/a.rs"]) ⟨.root, []⟩ "." = .ok [⟨⟨.root, ["a.rs"]⟩, []⟩] ∧
      IsExcluded ["/a.rs"] ["a.rs"]) ∧
    (scan Sample.layered (.of [".rs"] ["rs/"]) ⟨.root, []⟩ "rs" = .ok [⟨⟨.root, ["rs", "a.rs"]⟩, []⟩] ∧
      IsExcluded ["rs/"] ["rs", "a.rs"]) := by
  refine ⟨⟨Sample.scan_rooted, .inl ?_⟩, Sample.scan_layered (.inl rfl), .inr ⟨["rs"], ["a.rs"], rfl, by decide, ?_⟩⟩
  · exact (excludes_iff [".rs"]).2 (Sample.ignores_rooted.2 rfl)
  · exact ((excludes_iff [".rs"]).trans (Sample.ignores_layered (.inl rfl))).2 ⟨rfl, by decide +kernel⟩

end FfiBindings
