import FfiBindings.Proofs.Source.Discovery

/-!
Where modules go. Two modules of a scan share their binding exactly where they are in one directory and
have one base name, and their import path exactly where the parts that these make are the same
(`scan_outputs`); that takes names that differ in the suffix, or a base name of a single dot, which no path
keeps. Both can be found on a disk (`outputs_not_distinct`).
-/

set_option autoImplicit false
set_option relaxedAutoImplicit false

namespace FfiBindings

namespace SourceModule

variable {source other : SourceModule}

/-- The parts that a module adds to a path that it is imported by. A single dot adds none. -/
def importParts (source : SourceModule) : List String :=
  source.directory ++ if source.baseName = "." then [] else [source.baseName]

/-- The names of the directories and of the file of a module can be spelled. -/
structure IsSpelled (source : SourceModule) : Prop where
  directory : ∀ part ∈ source.directory, Path.isPlainPart part = true
  name : Path.isPlainPart source.path.name = true

theorem isPart_baseName (h : IsSpelled source) :
    Path.isPart source.baseName.toList = true ↔ source.baseName ≠ "." := by
  have hne := (Path.stem_of_isPlainPart h.name).1
  rw [baseName, Path.isPart, Bool.and_eq_true, Bool.not_eq_true', List.isEmpty_eq_false_iff, bne_iff_ne]
  have hdot : source.path.stem.toList = ['.'] ↔ source.path.stem = "." := by
    rw [← String.toList_inj]
    rfl
  exact (and_iff_right hne).trans (not_congr hdot)

/-- A base name is read as one part, or none. -/
theorem ofText_baseName (h : IsSpelled source) :
    Path.ofText source.baseName = ⟨.current, if source.baseName = "." then [] else [source.baseName]⟩ := by
  have hslash : '/' ∉ source.baseName.toList := (Path.stem_of_isPlainPart h.name).2
  rw [Path.ofText_of_notMem hslash]
  by_cases hdot : source.baseName = "."
  · rw [if_pos hdot, if_neg]
    exact fun hpart => (isPart_baseName h).1 hpart hdot
  · rw [if_neg hdot, if_pos ((isPart_baseName h).2 hdot)]

theorem isPlainPart_baseName (h : IsSpelled source) (hdot : source.baseName ≠ ".") :
    Path.isPlainPart source.baseName = true :=
  (Path.isPlainPart_iff _).2 ⟨(isPart_baseName h).2 hdot, (Path.stem_of_isPlainPart h.name).2⟩

theorem isPlainPart_importParts (h : IsSpelled source) :
    ∀ part ∈ source.importParts, Path.isPlainPart part = true := by
  intro part hpart
  rcases List.mem_append.1 hpart with hdirectory | hbase
  · exact h.directory part hdirectory
  · split at hbase
    · exact absurd hbase List.not_mem_nil
    · rw [List.mem_singleton.1 hbase]
      exact isPlainPart_baseName h ‹_›

theorem importPath_eq (h : IsSpelled source) (outputDirectory : String) :
    source.importPath outputDirectory =
      "./" ++ ((Path.ofText (withForwardSlashes outputDirectory)).join
        ⟨.current, source.importParts⟩).toText := by
  rw [importPath, Path.joinText, ofText_baseName h]
  simp only [Path.join, relativeDirectory, if_true, importParts, List.append_assoc]

/-- Import paths say which parts they are made of. -/
theorem importPath_eq_iff (h : IsSpelled source) (hother : IsSpelled other) (outputDirectory : String) :
    source.importPath outputDirectory = other.importPath outputDirectory ↔
      source.importParts = other.importParts := by
  rw [importPath_eq h, importPath_eq hother]
  constructor
  · intro htext
    have hplain {source : SourceModule} (h : IsSpelled source) :
        ∀ part ∈ ((Path.ofText (withForwardSlashes outputDirectory)).join
          ⟨.current, source.importParts⟩).parts, Path.isPlainPart part = true := by
      intro part hpart
      rcases List.mem_append.1 hpart with hout | hin
      · exact Path.isPlainPart_of_mem_ofText hout
      · exact isPlainPart_importParts h part hin
    have hpath := Path.eq_of_toText_eq (hplain h) (hplain hother) (String.append_right_inj "./" |>.1 htext)
    exact List.append_cancel_left (congrArg Path.parts hpath)
  · intro hparts
    rw [hparts]

theorem bindingPath_eq_iff (source other : SourceModule) (outputRoot : Path) :
    source.bindingPath outputRoot = other.bindingPath outputRoot ↔
      source.directory = other.directory ∧ source.baseName = other.baseName := by
  constructor
  · intro heq
    have hparts : outputRoot.parts ++ source.directory ++ [source.baseName ++ ".ts"] =
        outputRoot.parts ++ other.directory ++ [other.baseName ++ ".ts"] := congrArg Path.parts heq
    obtain ⟨habove, hlast⟩ := List.append_singleton_inj.1 hparts
    exact ⟨List.append_cancel_left habove, (String.append_left_inj ".ts").1 hlast⟩
  · rintro ⟨hdirectory, hbase⟩
    rw [bindingPath, bindingPath, relativeDirectory, relativeDirectory, hdirectory, hbase]

end SourceModule

variable {disk : Disk} {selection : Selection} {root : Path} {sourceDirectory : String}
  {sources : List SourceModule} {source other : SourceModule}

theorem scan_isSpelled (hproper : disk.tree.isProper = true)
    (h : scan disk selection root sourceDirectory = .ok sources) (hsource : source ∈ sources) :
    source.IsSpelled := by
  obtain ⟨location, rfl, hne, hnames, -⟩ := exists_moduleAt hproper h hsource
  obtain ⟨directory, name, rfl⟩ : ∃ directory name, location = directory ++ [name] :=
    ⟨_, _, (List.dropLast_concat_getLast hne).symm⟩
  rw [moduleAt_concat]
  refine ⟨fun part hpart => ?_, ?_⟩
  · exact isPlainPart_of_isEntryName (hnames part (List.mem_append_left _ hpart))
  · rw [Path.name_child]
    exact isPlainPart_of_isEntryName (hnames name (List.mem_append_right _ (List.mem_singleton_self name)))

/-- The directory and the name of a module are its own. -/
theorem scan_eq_of_name (hproper : disk.tree.isProper = true)
    (h : scan disk selection root sourceDirectory = .ok sources) (hsource : source ∈ sources)
    (hother : other ∈ sources) (hdirectory : source.directory = other.directory)
    (hname : source.path.name = other.path.name) : source = other := by
  have hconcat {source : SourceModule} (hsource : source ∈ sources) : source =
      moduleAt ((root.absolute disk.current).joinText sourceDirectory)
        (source.directory ++ [source.path.name]) := by
    obtain ⟨location, rfl, hne, -, -⟩ := exists_moduleAt hproper h hsource
    obtain ⟨directory, name, rfl⟩ : ∃ directory name, location = directory ++ [name] :=
      ⟨_, _, (List.dropLast_concat_getLast hne).symm⟩
    rw [moduleAt_concat, Path.name_child, moduleAt_concat]
  rw [hconcat hsource, hconcat hother, hdirectory, hname]

/-- When two modules of a scan share their binding, and when their import path. Both have another suffix
then, unless a base name is a single dot. -/
theorem scan_outputs (hproper : disk.tree.isProper = true)
    (h : scan disk selection root sourceDirectory = .ok sources) (hsource : source ∈ sources)
    (hother : other ∈ sources) (hne : source ≠ other) :
    (∀ outputRoot, source.bindingPath outputRoot = other.bindingPath outputRoot ↔
      source.directory = other.directory ∧ source.baseName = other.baseName) ∧
    (∀ outputDirectory, source.importPath outputDirectory = other.importPath outputDirectory ↔
      source.importParts = other.importParts) ∧
    (source.path.suffix = other.path.suffix →
      ¬ (source.directory = other.directory ∧ source.baseName = other.baseName) ∧
      (source.baseName ≠ "." → other.baseName ≠ "." → source.importParts ≠ other.importParts)) := by
  have hspelled := scan_isSpelled hproper h hsource
  have hspelledOther := scan_isSpelled hproper h hother
  refine ⟨fun outputRoot => source.bindingPath_eq_iff other outputRoot, fun outputDirectory =>
    SourceModule.importPath_eq_iff hspelled hspelledOther outputDirectory, fun hsuffix => ?_⟩
  have hapart : ¬ (source.directory = other.directory ∧ source.baseName = other.baseName) := by
    rintro ⟨hdirectory, hbase⟩
    refine hne (scan_eq_of_name hproper h hsource hother hdirectory ?_)
    rw [← Path.stem_append_suffix, ← Path.stem_append_suffix, hsuffix]
    exact congrArg (· ++ other.path.suffix) hbase
  refine ⟨hapart, fun hdot hdotOther hparts => hapart ?_⟩
  rw [SourceModule.importParts, SourceModule.importParts, if_neg hdot, if_neg hdotOther] at hparts
  exact List.append_singleton_inj.1 hparts

namespace Sample

/-- Two sources whose names differ in the letter case of the suffix alone. -/
def twins : Disk where
  tree := .directory "rs" (.file "a.RS" .empty 0o644 (.file "a.rs" .empty 0o644 .empty)) .empty

def upper : SourceModule := ⟨⟨.root, ["rs", "a.RS"]⟩, []⟩

def lower : SourceModule := ⟨⟨.root, ["rs", "a.rs"]⟩, []⟩

/-- A source, and one with the base name of a single dot in the directory of its name. -/
def dotted : Disk where
  tree := .directory "rs" (.file "x.rs" .empty 0o644
    (.directory "x" (.file "..rs" .empty 0o644 .empty) .empty)) .empty

def dot : SourceModule := ⟨⟨.root, ["rs", "x", "..rs"]⟩, ["x"]⟩

def plain : SourceModule := ⟨⟨.root, ["rs", "x.rs"]⟩, []⟩

def rustSources : Selection := .of (Language.all.flatMap Language.suffixes) []

theorem scan_twins : scan twins rustSources ⟨.root, []⟩ "rs" = .ok [upper, lower] :=
  scan_of_met (by decide +kernel) (by decide +kernel)

theorem scan_dotted : scan dotted rustSources ⟨.root, []⟩ "rs" = .ok [plain, dot] :=
  scan_of_met (by decide +kernel) (by decide +kernel)

end Sample

/-- Different modules of one scan that share what they are written to: the first two have the same binding
and the same import path, the others the same import path alone. -/
theorem outputs_not_distinct :
    (scan Sample.twins Sample.rustSources ⟨.root, []⟩ "rs" = .ok [Sample.upper, Sample.lower] ∧
      Sample.upper ≠ Sample.lower ∧
      Sample.upper.bindingPath ⟨.root, ["mod"]⟩ = Sample.lower.bindingPath ⟨.root, ["mod"]⟩ ∧
      Sample.upper.importPath "mod" = Sample.lower.importPath "mod") ∧
    (scan Sample.dotted Sample.rustSources ⟨.root, []⟩ "rs" = .ok [Sample.plain, Sample.dot] ∧
      Sample.plain.bindingPath ⟨.root, ["mod"]⟩ ≠ Sample.dot.bindingPath ⟨.root, ["mod"]⟩ ∧
      Sample.plain.importPath "mod" = Sample.dot.importPath "mod") := by
  refine ⟨⟨Sample.scan_twins, by decide +kernel, by decide +kernel, by decide +kernel⟩,
    Sample.scan_dotted, by decide +kernel, by decide +kernel⟩

/-- The twins share their binding because they share their directory and their base name. -/
theorem scan_outputs_twins :
    Sample.twins.tree.isProper = true ∧
      (Sample.upper.bindingPath ⟨.root, ["mod"]⟩ = Sample.lower.bindingPath ⟨.root, ["mod"]⟩ ↔
        Sample.upper.directory = Sample.lower.directory ∧ Sample.upper.baseName = Sample.lower.baseName) :=
  ⟨by decide +kernel, (scan_outputs (by decide +kernel) Sample.scan_twins List.mem_cons_self
    (List.mem_cons_of_mem _ List.mem_cons_self) (by decide +kernel)).1 ⟨.root, ["mod"]⟩⟩

end FfiBindings
