import FfiBindings.Proofs.Generation.Merging
import FfiBindings.Proofs.Generation.Reported
import FfiBindings.Proofs.Source.Output

/-!
What the index imports. Entries and written paths of a report are those of the same modules, in their order
(`generate_bound`). An import path is looked up from the directory of the index, so it leads to the binding
where the settings make the two directories the same (`Config.SeesBindings`), and then for every base name
that is no dots (`generate_entries`). They do where the index is in the library root and the output directory
is spelled without backslashes (`Config.seesBindings_of_root`), and not in general (`entries_not_seen`).
-/

set_option autoImplicit false
set_option relaxedAutoImplicit false

namespace FfiBindings

open Path (walkUpAndDown)

/-! ### From the index to a binding -/

/-- The path with more text after its last name. -/
def Path.extended (path : Path) (text : String) : Path :=
  path.parent.child (path.name ++ text)

/-- The file that an import path leads to, seen from an index. -/
def importedFile (indexPath : Path) (current : Location) (importPath : String) : Path :=
  ((indexPath.parent.joinText importPath).absolute current).extended ".ts"

/-- Import paths and bindings begin in the same directory. -/
def Config.SeesBindings (config : Config) (current : Location) : Prop :=
  (config.indexPath.parent.joinText
    ("./" ++ SourceModule.withForwardSlashes config.outputDirectory)).absolute current =
      config.outputRoot.absolute current

theorem Path.joinText_dotSlash (path : Path) (text : String) :
    path.joinText ("./" ++ text) = ⟨path.anchor, path.parts ++ (ofText text).parts⟩ := by
  rw [joinText, ofText_dotSlash, join_parts_of_current]

theorem Path.absolute_append (anchor : Anchor) (front : List String) {back : List String}
    (h : ".." ∉ back) (current : Location) :
    (Path.absolute ⟨anchor, front ++ back⟩ current).parts =
      (Path.absolute ⟨anchor, front⟩ current).parts ++ back := by
  simp only [absolute]
  rw [walkUpAndDown_append, walkUpAndDown_eq_append h]

theorem Path.extended_concat (anchor : Anchor) (above : List String) (last text : String) :
    Path.extended ⟨anchor, above ++ [last]⟩ text = ⟨anchor, above ++ [last ++ text]⟩ := by
  simp only [extended, parent, child, name, List.dropLast_concat, List.getLast?_concat, Option.getD_some]

theorem Path.absolute_eq_iff (path other : Path) (current : Location) :
    path.absolute current = other.absolute current ↔
      (path.absolute current).parts = (other.absolute current).parts := by
  constructor
  · intro heq
    rw [heq]
  · intro hparts
    exact congrArg (Path.mk .root) hparts

/-- A module whose directory and base name lead down only. -/
structure SourceModule.LeadsDown (source : SourceModule) : Prop where
  directory : ".." ∉ source.directory
  single : source.baseName ≠ "."
  double : source.baseName ≠ ".."

/-- An import path leads to the binding where both begin in the same directory. -/
theorem importedFile_eq_iff {source : SourceModule} (hspelled : source.IsSpelled) (hdown : source.LeadsDown)
    (config : Config) (current : Location) :
    importedFile config.indexPath current (source.importPath config.outputDirectory) =
        (source.bindingPath config.outputRoot).absolute current ↔ config.SeesBindings current := by
  have hlast : source.baseName ++ ".ts" ≠ ".." := by
    intro heq
    have hletter := congrArg (fun text => text.toList.getLast?) heq
    simp [String.toList_append] at hletter
  have hbinding : (source.bindingPath config.outputRoot).absolute current = ⟨.root,
      (config.outputRoot.absolute current).parts ++ source.directory ++ [source.baseName ++ ".ts"]⟩ := by
    rw [List.append_assoc, ← Path.absolute_append config.outputRoot.anchor config.outputRoot.parts,
      ← List.append_assoc]
    · rfl
    · rw [List.mem_append, List.mem_singleton, not_or]
      exact ⟨hdown.directory, hlast.symm⟩
  have hparts : ∀ part ∈ ((Path.ofText (SourceModule.withForwardSlashes config.outputDirectory)).join
      ⟨.current, source.importParts⟩).parts, Path.isPlainPart part = true := by
    intro part hpart
    rcases List.mem_append.1 hpart with hout | hin
    · exact Path.isPlainPart_of_mem_ofText hout
    · exact SourceModule.isPlainPart_importParts hspelled part hin
  have himport : (config.indexPath.parent.joinText (source.importPath config.outputDirectory)).absolute
      current = ⟨.root, ((config.indexPath.parent.joinText
        ("./" ++ SourceModule.withForwardSlashes config.outputDirectory)).absolute current).parts ++
          source.directory ++ [source.baseName]⟩ := by
    rw [SourceModule.importPath_eq hspelled, Path.joinText_dotSlash, Path.ofText_toText hparts,
      Path.joinText_dotSlash, List.append_assoc, ← Path.absolute_append, SourceModule.importParts,
      if_neg hdown.single, Path.join_parts_of_current, List.append_assoc]
    · rfl
    · rw [List.mem_append, List.mem_singleton, not_or]
      exact ⟨hdown.directory, hdown.double.symm⟩
  rw [importedFile, himport, hbinding, Path.extended_concat, Config.SeesBindings, Path.absolute_eq_iff]
  constructor
  · intro heq
    have hsame := congrArg Path.parts heq
    exact List.append_cancel_right (List.append_cancel_right hsame)
  · intro hsame
    rw [hsame]

theorem SourceModule.withForwardSlashes_of_notMem {text : String} (h : '\\' ∉ text.toList) :
    withForwardSlashes text = text := by
  have hsame : text.toList.map (fun c => if c = '\\' then '/' else c) = text.toList := by
    refine (List.map_congr_left fun c hc => ?_).trans (List.map_id _)
    rw [if_neg]
    · rfl
    · rintro rfl
      exact h hc
  rw [withForwardSlashes, hsame, String.ofList_toList]

/-- They do where the index is in the library root and the output directory has no backslash. -/
theorem Config.seesBindings_of_root {config : Config} {current : Location}
    (hindex : config.indexPath.parent.absolute current = config.root.absolute current)
    (hslashes : '\\' ∉ config.outputDirectory.toList)
    (hrelative : (Path.ofText config.outputDirectory).anchor = .current) :
    config.SeesBindings current := by
  have hroot : config.outputRoot =
      ⟨config.root.anchor, config.root.parts ++ (Path.ofText config.outputDirectory).parts⟩ := by
    rw [outputRoot, Path.joinText, Path.join, if_pos hrelative]
  rw [SeesBindings, SourceModule.withForwardSlashes_of_notMem hslashes, Path.joinText_dotSlash, hroot,
    Path.absolute_eq_iff]
  have hparts := (Path.absolute_eq_iff _ _ _).1 hindex
  simp only [Path.absolute] at hparts ⊢
  rw [Path.walkUpAndDown_append, Path.walkUpAndDown_append, hparts]

namespace Generation

variable {task : Task} {session after : Session} {request : Request} {circumstances : Circumstances}
  {config : Config} {sources : List SourceModule} {source : SourceModule} {report final : Report}

namespace Task

/-! ### Entries and written paths -/

/-- An outcome that binds a module has the import path and the binding path of the module. -/
def BindsItself (task : Task) (source : SourceModule) : Stage → Prop
  | .finished (.bound entry written) =>
    entry.importPath = source.importPath task.config.outputDirectory ∧ written = task.target source
  | _ => True

theorem bindsItself_refused (task : Task) (source : SourceModule) (attempt : String) (error : FileError) :
    task.BindsItself source (.finished (task.refused source attempt error)) := by
  cases error <;> trivial

theorem bindsItself_layOut {disk : Disk} {functions : List Rust.ExportedFunction} {outcome : Outcome}
    (h : task.layOut source disk functions = .error outcome) : task.BindsItself source (.finished outcome) := by
  rcases layOut_eq_error h with ⟨error, -, rfl⟩ | ⟨fault, rfl⟩
  · trivial
  · trivial

theorem bindsItself_prepare {outcome : Outcome} (h : (task.prepare source session).2 = .error outcome) :
    task.BindsItself source (.finished outcome) := by
  unfold prepare at h
  split at h
  · obtain rfl := Except.error.inj h
    trivial
  · split at h
    · exact absurd h (by simp)
    · split at h
      · exact absurd h (by simp)
      · obtain rfl := Except.error.inj h
        exact task.bindsItself_refused source _ _

theorem bindsItself_read {language : Language} {outcome : Outcome}
    (h : (task.read source language session).2 = .error outcome) :
    task.BindsItself source (.finished outcome) := by
  unfold read at h
  split at h
  · obtain rfl := Except.error.inj h
    exact task.bindsItself_refused source _ _
  · rename_i bytes hbytes
    have hextract := task.extract_eq source language bytes
    dsimp only at h
    cases hfunctions : language.functionsIn? bytes with
    | some functions =>
      simp only [hfunctions] at hextract
      rw [hextract] at h
      exact bindsItself_layOut h
    | none =>
      simp only [hfunctions] at hextract
      obtain ⟨diagnostic, hnoted⟩ := hextract
      rw [hnoted] at h
      obtain rfl := Except.error.inj h
      trivial

/-- No step of a module binds another one. -/
theorem bindsItself_advance (task : Task) (source : SourceModule) (session : Session) (stage : Stage)
    (h : task.BindsItself source stage) : task.BindsItself source (task.advance source session stage).2 := by
  cases stage with
  | waiting =>
    rw [advance]
    rcases hprepare : task.prepare source session with ⟨next, outcome | language⟩
    · exact bindsItself_prepare (congrArg Prod.snd hprepare)
    · trivial
  | prepared language =>
    rw [advance]
    rcases hread : task.read source language session with ⟨next, outcome | layout⟩
    · exact bindsItself_read (congrArg Prod.snd hread)
    · trivial
  | laidOut layout =>
    simp only [advance, write]
    split
    · exact ⟨rfl, rfl⟩
    · rcases task.writeContent source layout session.disk with ⟨disk, _ | error⟩
      · dsimp only
        split
        · trivial
        · exact ⟨rfl, rfl⟩
      · exact task.bindsItself_refused source _ error
  | finished outcome => exact h

/-- The modules are those that the report has entries and written paths of. -/
structure Binds (task : Task) (bound : List SourceModule) (report : Report) : Prop where
  entries : report.entries.map IndexEntry.importPath =
    bound.map fun source => source.importPath task.config.outputDirectory
  written : report.written = bound.map task.target

/-- A report that outcomes lead to, also if one of them aborts the run. -/
def Reaches (result : Except Halt Report) (report : Report) : Prop :=
  result = .ok report ∨ result = .error (.aborted report)

theorem binds_of_reaches {steps : List (SourceModule × Outcome)}
    (hsteps : ∀ step ∈ steps, task.BindsItself step.1 (.finished step.2)) {start : Report}
    {before : List SourceModule} (hstart : task.Binds before start)
    (hreaches : Reaches (task.reportedAll start steps) report) :
    ∃ bound, bound.Sublist (steps.map Prod.fst) ∧ task.Binds (before ++ bound) report := by
  induction steps generalizing start before with
  | nil =>
    rcases hreaches with hok | haborted
    · obtain rfl := Except.ok.inj hok
      exact ⟨[], .slnil, by rwa [List.append_nil]⟩
    · exact absurd haborted (by simp)
  | cons step steps ih =>
    obtain ⟨source, outcome⟩ := step
    have hrest : ∀ step ∈ steps, task.BindsItself step.1 (.finished step.2) := fun step hstep =>
      hsteps step (List.mem_cons_of_mem _ hstep)
    have hfirst := hsteps _ List.mem_cons_self
    cases outcome with
    | bound entry written =>
      obtain ⟨hentry, hwritten⟩ : entry.importPath = source.importPath task.config.outputDirectory ∧
        written = task.target source := hfirst
      have hnext : task.Binds (before ++ [source]) { start with
          entries := start.entries ++ [entry], written := start.written ++ [written] } := by
        refine ⟨?_, ?_⟩
        · simp [hstart.entries, hentry]
        · simp [hstart.written, hwritten]
      obtain ⟨bound, hsub, hbinds⟩ := ih hrest hnext hreaches
      exact ⟨source :: bound, hsub.cons_cons source, by simpa using hbinds⟩
    | noted diagnostic =>
      have hnext : task.Binds before { start with diagnostics := start.diagnostics ++ [diagnostic] } :=
        ⟨hstart.entries, hstart.written⟩
      obtain ⟨bound, hsub, hbinds⟩ := ih hrest hnext hreaches
      exact ⟨bound, hsub.cons source, hbinds⟩
    | unsupported error =>
      rcases hreaches with hok | haborted
      · exact absurd hok (by simp)
      · have hlast := (Halt.aborted.inj (Except.error.inj haborted)).symm
        refine ⟨[], List.nil_sublist _, ?_⟩
        rw [List.append_nil, hlast]
        exact ⟨hstart.entries, hstart.written⟩
    | stopped error =>
      rcases hreaches with hok | haborted
      · exact absurd hok (by simp)
      · exact absurd haborted (by simp)

/-- The work on the modules, aborted or not, reports entries and written paths of the same modules. -/
theorem work_binds {workers : Int} {events : List Event} {start : Report} (hstart : task.Binds [] start)
    (hreaches : Reaches (task.work workers events sources session start).2 report) :
    ∃ bound, bound.Sublist sources ∧ task.Binds bound report := by
  obtain ⟨steps, hwork, hprefix, hsteps, -⟩ := @work_reported task sources task.BindsItself workers events
    session start (fun _ _ => trivial) fun source passed stage _ _ => task.bindsItself_advance source passed stage
  rw [hwork] at hreaches
  obtain ⟨bound, hsub, hbinds⟩ := binds_of_reaches hsteps hstart hreaches
  exact ⟨bound, hsub.trans hprefix.sublist, by simpa using hbinds⟩

end Task

/-- A report has the entries and the written paths of some of the modules, in their order. -/
theorem generate_bound (hbegins : Begins session request config sources)
    (hrun : generate session request circumstances = (after, .ok report)) :
    ∃ bound : List SourceModule, bound.Sublist sources ∧
      report.entries.map IndexEntry.importPath =
        bound.map (fun source => source.importPath config.outputDirectory) ∧
      report.written = bound.map fun source => source.bindingPath config.outputRoot := by
  rw [hbegins.generate_eq] at hrun
  have hconfig : (taskFor request circumstances config).config = config := rfl
  generalize taskFor request circumstances config = task at hrun hconfig
  subst hconfig
  have hstart : task.Binds [] task.firstReport := ⟨rfl, rfl⟩
  rw [generateModules_eq] at hrun
  rcases hwork : task.work (request.workers.getD task.config.workers) circumstances.events sources
    (begun session request sources) task.firstReport with ⟨worked, (aborted | error) | made⟩
  · rw [hwork] at hrun
    obtain rfl := Except.ok.inj (congrArg Prod.snd hrun)
    obtain ⟨bound, hsub, hbinds⟩ := Task.work_binds hstart (.inr (congrArg Prod.snd hwork))
    exact ⟨bound, hsub, hbinds.entries, hbinds.written⟩
  · rw [hwork] at hrun
    exact absurd (congrArg Prod.snd hrun) (by simp)
  · rw [hwork] at hrun
    simp only at hrun
    obtain ⟨bound, hsub, hbinds⟩ := Task.work_binds hstart (.inl (congrArg Prod.snd hwork))
    obtain ⟨hentries, hwritten⟩ := conclude_lists (congrArg Prod.snd hrun)
    refine ⟨bound, hsub, ?_, ?_⟩
    · rw [hentries]
      exact hbinds.entries
    · rw [hwritten]
      exact hbinds.written

/-- Every entry of a report goes with the written path of the same module, and its import path leads to that
binding, seen from the index, exactly where the settings let it, unless the base name is dots. -/
theorem generate_entries (hproper : session.disk.tree.isProper = true)
    (hbegins : Begins session request config sources)
    (hrun : generate session request circumstances = (after, .ok report)) :
    report.entries.length = report.written.length ∧
    ∀ pair ∈ report.entries.zip report.written, ∃ source ∈ sources,
      pair.1.importPath = source.importPath config.outputDirectory ∧
      pair.2 = source.bindingPath config.outputRoot ∧
      (source.baseName ≠ "." → source.baseName ≠ ".." →
        (importedFile config.indexPath session.disk.current pair.1.importPath =
          pair.2.absolute session.disk.current ↔ config.SeesBindings session.disk.current)) := by
  obtain ⟨bound, hsub, hentries, hwritten⟩ := generate_bound hbegins hrun
  constructor
  · rw [hwritten, List.length_map, ← List.length_map (f := IndexEntry.importPath), hentries,
      List.length_map]
  · rintro ⟨entry, written⟩ hpair
    obtain ⟨index, hindex⟩ := List.mem_iff_getElem?.1 hpair
    rw [List.getElem?_zip_eq_some] at hindex
    obtain ⟨hentry, hpath⟩ := hindex
    have himport : (bound.map fun source => source.importPath config.outputDirectory)[index]? =
        some entry.importPath := by
      rw [← hentries, List.getElem?_map, hentry, Option.map_some]
    rw [List.getElem?_map, Option.map_eq_some_iff] at himport
    obtain ⟨source, hsource, himport⟩ := himport
    rw [hwritten, List.getElem?_map, hsource, Option.map_some, Option.some.injEq] at hpath
    have hmem : source ∈ sources := hsub.subset (List.mem_of_getElem? hsource)
    refine ⟨source, hmem, himport.symm, hpath.symm, fun hsingle hdouble => ?_⟩
    obtain ⟨location, rfl, -, hnames, -⟩ := exists_moduleAt hproper hbegins.scan hmem
    have hdirectory : ".." ∉ (moduleAt ((Path.absolute (request.path.absolute session.disk.current)
        session.disk.current).joinText config.sourceDirectory) location).directory := by
      intro hdots
      exact ne_of_isFileName (isFileName_of_isEntryName (hnames _ (List.dropLast_subset _ hdots))) rfl
    rw [← himport, ← hpath]
    exact importedFile_eq_iff (scan_isSpelled hproper hbegins.scan hmem) ⟨hdirectory, hsingle, hdouble⟩
      config session.disk.current

namespace Sample

/-- Settings by which the index is in a directory of its own. -/
def innerSettings : Config where
  root := ⟨.root, []⟩
  indexFile := "gen/index.ts"

/-- A library with these settings and a module that exports a function. -/
def inner : Session where
  disk :=
    { tree := .file ".bunbind.yml" "index_file: gen/index.ts\n".toUTF8 0o644
        (.directory "rs" (.file "a.rs" sourceText.toUTF8 0o644 .empty) .empty) }

theorem begins_inner : Begins inner Sample.request innerSettings [exporting] :=
  .of_met (by decide +kernel)

end Sample

/-- Settings that do not let the index see the bindings: with an index in a directory of its own the paths
begin at the wrong place, and where the name of the output directory has a backslash they take it for a
slash. And a file whose base name is a single dot: even with the stock settings its import path leads
elsewhere. -/
theorem entries_not_seen :
    (∃ entry written, ((generate Sample.inner Sample.request {}).2.toOption.map fun report =>
        (report.entries, report.written)) = some ([entry], [written]) ∧
      importedFile Sample.innerSettings.indexPath [] entry.importPath ≠ written.absolute []) ∧
    ¬ Config.SeesBindings { root := ⟨.root, []⟩, outputDirectory := "gen\\out" } [] ∧
    (Config.SeesBindings { root := ⟨.root, []⟩ } [] ∧
      importedFile ⟨.root, ["index.ts"]⟩ [] (Sample.dot.importPath "mod") ≠
        (Sample.dot.bindingPath ⟨.root, ["mod"]⟩).absolute []) := by
  refine ⟨⟨⟨"./mod/a", ["f"]⟩, ⟨.root, ["mod", "a.ts"]⟩, by decide +kernel, by decide +kernel⟩, ?_, ?_, ?_⟩
  · rw [Config.SeesBindings]
    decide +kernel
  · rw [Config.SeesBindings]
    decide +kernel
  · decide +kernel

/-- A run whose index does not see the binding that it imports: the entry leads below the directory of the index. -/
theorem generate_entries_inner :
    Begins Sample.inner Sample.request Sample.innerSettings [Sample.exporting] ∧
      ∃ after report entry written, generate Sample.inner Sample.request {} = (after, .ok report) ∧
        report.entries = [entry] ∧ report.written = [written] ∧
        importedFile Sample.innerSettings.indexPath [] entry.importPath = ⟨.root, ["gen", "mod", "a.ts"]⟩ ∧
        importedFile Sample.innerSettings.indexPath [] entry.importPath ≠ written.absolute [] := by
  have hproper : Sample.inner.disk.tree.isProper = true := by decide +kernel
  have hmade : ((generate Sample.inner Sample.request {}).2.toOption.map fun report =>
      (report.entries, report.written)) = some ([⟨"./mod/a", ["f"]⟩], [⟨.root, ["mod", "a.ts"]⟩]) := by decide +kernel
  have hunseen : ¬ Sample.innerSettings.SeesBindings [] := by
    rw [Config.SeesBindings]
    decide +kernel
  rcases hrun : generate Sample.inner Sample.request {} with ⟨after, error | report⟩
  · rw [hrun] at hmade
    exact absurd hmade (by simp [Except.toOption])
  · rw [hrun] at hmade
    obtain ⟨hentries, hwritten⟩ := Prod.mk.inj (Option.some.inj hmade)
    obtain ⟨-, hleads⟩ := generate_entries hproper Sample.begins_inner hrun
    refine ⟨Sample.begins_inner, after, report, _, _, rfl, hentries, hwritten, by decide +kernel, ?_⟩
    obtain ⟨source, hsource, -, -, hseen⟩ := hleads (⟨"./mod/a", ["f"]⟩, ⟨.root, ["mod", "a.ts"]⟩)
      (by rw [hentries, hwritten]; exact List.mem_singleton_self _)
    obtain rfl := List.mem_singleton.1 hsource
    exact fun heq => hunseen ((hseen (by decide) (by decide)).1 heq)
end Generation

end FfiBindings
