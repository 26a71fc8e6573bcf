import FfiBindings.Generation.Run
import FfiBindings.Proofs.Generation.Work
import FfiBindings.Proofs.Index.History
import FfiBindings.Proofs.Source.Discovery
import Mathlib.Data.List.Pairwise

/-!
A whole run. It begins with the settings and the sources (`Begins.generate_eq`), works on the modules, and
when these are done the index takes up the import paths of all bindings at once (`mergeIndex_right`). So
if nothing is in its way (`Clear`), a run leaves the binding of every module that exports functions, in the
place of every other module's binding what was there before, and in the index what it held with the import
paths merged in (`generate_right`). The log file must be none of these files and not the template, and no
binding may lie below the place of the index (`not_right_without_conditions`).
-/

set_option autoImplicit false
set_option relaxedAutoImplicit false

namespace FfiBindings.Generation

open Disk
open Index (IndexFile)

section generate

variable {session : Session} {request : Request} {circumstances : Circumstances} {config : Config}
  {sources : List SourceModule} {index : Option IndexFile} {report : Report} {location : Location}

/-! ### The index of a run -/

theorem withIndex_disk (path : Path) (update : Index.Update) (dryRun : Bool) (session : Session) :
    (withIndex path update dryRun session).disk = session.disk := by
  unfold withIndex
  split
  · split
    · exact session.replacedAt_disk _
    · rfl
  · rfl

/-- No other log file is written to once the index is replaced. -/
theorem mem_logLocations_of_withIndex {path : Path} {update : Index.Update} {dryRun : Bool}
    (h : location ∈ (withIndex path update dryRun session).logLocations) :
    location ∈ session.logLocations := by
  unfold withIndex at h
  split at h
  · split at h
    · exact Session.mem_logLocations_of_replacedAt h
    · exact h
  · exact h

/-- What the end of a run leaves: the index with all import paths merged in, and a longer log file. -/
structure IndexRight (session : Session) (path : Path) (location : Location) (index : Option IndexFile)
    (importPaths : List String) (after : Session) : Prop where
  changes : Changes (fun other => other = location ∨ other ∈ session.logLocations)
    (Index.AboveIndex session.disk path) session.disk after.disk
  log : ∀ other ∈ after.logLocations, other ∈ session.logLocations
  held : location ∉ session.logLocations → after.disk.find? path =
    some (.file (Index.merge (Index.textOf index) importPaths).toUTF8
      ((index.map IndexFile.mode).getD session.disk.newFileMode))

theorem mergeIndex_right (hready : Index.Ready session.disk report.indexPath location index)
    (hwrites : report.dryRun = false) :
    ∃ after changed, mergeIndex Index.Faults.none session report =
        (after, .ok { report with indexChanged := changed }) ∧
      IndexRight session report.indexPath location index (report.entries.map IndexEntry.importPath)
        after := by
  have hrun := hready.run (.real (report.entries.map IndexEntry.importPath))
  have hcall : (Index.Call.real (report.entries.map IndexEntry.importPath)).run session.disk
      report.indexPath = Index.update session.disk report.indexPath
        (report.entries.map IndexEntry.importPath) report.dryRun Index.Faults.none := by
    rw [hwrites]
    rfl
  have hresult := hrun.result
  have hchanges := hrun.others
  have hheld := hrun.ready.found
  rw [hcall] at hresult hchanges hheld
  rcases hupdate : Index.update session.disk report.indexPath
    (report.entries.map IndexEntry.importPath) report.dryRun Index.Faults.none with ⟨disk, result⟩
  rw [hupdate] at hresult hchanges hheld
  obtain rfl : result = .ok (Index.Update.of (Index.textOf index)
    (report.entries.map IndexEntry.importPath)) := hresult
  generalize Index.Update.of (Index.textOf index) (report.entries.map IndexEntry.importPath) = update
    at hupdate
  have hmerge : mergeIndex Index.Faults.none session report =
      ((withIndex report.indexPath update report.dryRun { session with disk }).noteAll
        (indexMessage report.indexPath update report.dryRun).toList,
        .ok { report with indexChanged := update.changed }) := by
    simp only [mergeIndex, hupdate]
  refine ⟨_, _, hmerge, ?_⟩
  have hlogged := Session.noteAll_changes
    (withIndex report.indexPath update report.dryRun { session with disk })
    (indexMessage report.indexPath update report.dryRun).toList
  rw [withIndex_disk] at hlogged
  have hlog : ∀ other, other ∈ (withIndex report.indexPath update report.dryRun
      { session with disk }).logLocations → other ∈ session.logLocations := by
    intro other hother
    have hbefore := mem_logLocations_of_withIndex hother
    exact hbefore
  have honly := hlogged.mono hlog
  refine ⟨?_, fun other hother => hlog other ?_, fun hapart => ?_⟩
  · refine Changes.trans (hchanges.mono (fun other heq => .inl heq) fun _ h => h) ?_
    exact Changes.mono honly (fun other h => .inr h.1) fun _ hnone => hnone.elim
  · rwa [Session.logLocations, Session.noteAll_handlers] at hother
  · refine Changes.find?_eq_file honly ?_ hheld
    rintro ⟨hthere, -⟩
    rw [hchanges.keeps.place_eq, ← hready.location_eq] at hthere
    exact hapart hthere

/-! ### The conditions of a run -/

/-- How a run begins: the settings are loaded and the sources are found. -/
structure Begins (session : Session) (request : Request) (config : Config) (sources : List SourceModule) :
    Prop where
  noNull : hasNull request.path = false
  load : Config.load session.disk (request.path.absolute session.disk.current) = .ok config
  scan : scan session.disk (selectionOf config) (request.path.absolute session.disk.current)
    config.sourceDirectory = .ok sources

/-- The session that the work on the modules begins with: the journal tells what has begun. -/
def begun (session : Session) (request : Request) (sources : List SourceModule) : Session :=
  (session.note ⟨.info, journalName, s!"Starting generation run for {
    (request.path.absolute session.disk.current).toText}"⟩).note
      ⟨.debug, journalName, s!"Discovered {sources.length} source modules"⟩

/-- What the work on all modules has in common. -/
def taskFor (request : Request) (circumstances : Circumstances) (config : Config) : Task :=
  taskOf request config circumstances.faults

/-- The index before the run: a file with a text, or nothing that could be read. -/
def HasIndex (disk : Disk) (path : Path) : Option IndexFile → Prop
  | some file => disk.find? path = some file.entry
  | none => disk.read path = .error (.refused .notFound path)

/-- Nothing is in the way of a run: no path of the settings leads out of a directory again, no binding is
in the place of another one or of the index or above them, the index is a text or absent, no directory and
no file fails to be made, the texts of the bindings have an encoding, and the platform and the template are
fine. -/
structure Clear (task : Task) (start : Disk) (sources : List SourceModule) (index : Option IndexFile) :
    Prop where
  current : start.HasCurrent
  named : start.tree.isNamed = true
  writes : task.dryRun = false
  sourceDirectory : ".." ∉ (Path.ofText task.config.sourceDirectory).parts
  outputDirectory : ".." ∉ (Path.ofText task.config.outputDirectory).parts
  indexFile : ".." ∉ (Path.ofText task.config.indexFile).parts
  templatesDirectory : ∀ directory, task.config.templatesDirectory = some directory →
    ".." ∉ directory.parts
  platform : ∃ platform, Platform.resolve task.plan.platform = .ok platform
  template : ∀ source ∈ sources, ∀ functions, task.functionsOf? start source = some functions →
    ∀ fault, task.layOut source start functions ≠ .error (.stopped (.template fault))
  encoded : task.config.binDirectoryHalved = false
  apart : sources.Pairwise fun source other =>
    Apart (start.place (task.target source)) (start.place (task.target other))
  notAboveIndex : ∀ source ∈ sources,
    ¬ start.place (task.target source) <+: start.place task.config.indexPath
  index : HasIndex start task.config.indexPath index
  indexFaults : task.faults.index = Index.Faults.none
  directoryFaults : ∀ source ∈ sources, task.faults.directory source = none
  writeFaults : ∀ source ∈ sources, task.faults.write source = none
  readFaults : ∀ source ∈ sources, task.faults.read source ≠ some .nullInPath
  made : ∀ source ∈ sources, task.supports source = true →
    (start.makeDirectories (task.target source).parent).2 = none
  vacant : ∀ source ∈ sources, (task.functionsOf? start source).isSome = true →
    start.isDirectory (task.target source) = false

/-- The log file is neither the index nor the template nor a source, and no binding is in its place or above
it. -/
def LogClear (task : Task) (start : Disk) (log : List Location) (sources : List SourceModule) : Prop :=
  ∀ location ∈ log, location ≠ start.place task.config.indexPath ∧
    ¬ task.IsTemplate start location ∧ ∀ source ∈ sources, location ≠ start.place source.path ∧
      ¬ start.place (task.target source) <+: location

/-- What a whole run leaves: the binding of every module that exports functions, in the place of every
other module what was there, and the index with the import paths of the bindings merged in. -/
structure RunRight (task : Task) (sources : List SourceModule) (index : Option IndexFile)
    (before after : Disk) : Prop where
  bound : ∀ source ∈ sources, ∀ functions, task.functionsOf? before source = some functions →
    ∃ layout mode, task.layOut source before functions = .ok layout ∧
      after.find? (task.target source) = some (.file layout.content.toUTF8 mode)
  others : ∀ source ∈ sources, task.functionsOf? before source = none → ∀ below,
    after.tree.sight? (before.place (task.target source) ++ below) =
      before.tree.sight? (before.place (task.target source) ++ below)
  index : after.find? task.config.indexPath = some (.file
    (Index.merge (Index.textOf index)
      ((sources.filter fun source => (task.functionsOf? before source).isSome).map fun source =>
        source.importPath task.config.outputDirectory)).toUTF8
    ((index.map IndexFile.mode).getD before.newFileMode))

/-! ### The beginning of a run -/

/-- After its beginning a run works on the modules. -/
theorem Begins.generate_eq (h : Begins session request config sources)
    (circumstances : Circumstances) :
    generate session request circumstances =
      generateModules (taskFor request circumstances config)
        (request.workers.getD config.workers) circumstances.events sources
        (begun session request sources) := by
  have hscan := h.scan
  rw [← scan_note session ⟨.info, journalName, s!"Starting generation run for {
    (request.path.absolute session.disk.current).toText}"⟩] at hscan
  simp only [generate, h.noNull, Bool.false_eq_true, if_false, h.load, hscan]
  rfl

/-- Where the modules are met in their order, whether a run begins can be computed. -/
theorem Begins.of_met (h : hasNull request.path = false ∧
      Config.load session.disk (request.path.absolute session.disk.current) = .ok config ∧
      met? session.disk (selectionOf config) (request.path.absolute session.disk.current)
        config.sourceDirectory = some sources ∧
      sources.Pairwise fun source other => pathLe source other = true) :
    Begins session request config sources :=
  ⟨h.1, h.2.1, scan_of_met h.2.2.1 h.2.2.2⟩

/-- A run begins, or it tells of itself at most and stops on an error, whatever else is asked of it. -/
theorem begins_or_stops (session : Session) (request : Request) :
    (∃ config sources, Begins session request config sources) ∨
      ∃ (told : Option Message) (error : RunError), ∀ asked : Request, asked.path = request.path →
        ∀ circumstances, generate session asked circumstances = (session.noteAll told.toList, .error error) := by
  by_cases hnull : hasNull request.path = true
  · refine .inr ⟨none, .file .nullInPath, fun asked hpath circumstances => ?_⟩
    rw [← hpath] at hnull
    exact if_pos hnull
  rw [Bool.not_eq_true] at hnull
  cases hload : Config.load session.disk (request.path.absolute session.disk.current) with
  | error error =>
    refine .inr ⟨none, .config error, fun asked hpath circumstances => ?_⟩
    simp only [generate, hpath, hnull, Bool.false_eq_true, if_false, hload]
    rfl
  | ok config =>
    cases hscan : scan session.disk (selectionOf config) (request.path.absolute session.disk.current)
      config.sourceDirectory with
    | error error =>
      refine .inr ⟨some ⟨.info, journalName, s!"Starting generation run for {
        (request.path.absolute session.disk.current).toText}"⟩, .scan error, fun asked hpath circumstances => ?_⟩
      simp only [generate, hpath, hnull, Bool.false_eq_true, if_false, hload, scan_note, hscan]
      rfl
    | ok sources => exact .inl ⟨config, sources, hnull, hload, hscan⟩

theorem Begins.root_down (h : Begins session request config sources)
    (hnamed : session.disk.tree.isNamed = true) (hcurrent : session.disk.HasCurrent) :
    ".." ∉ config.root.parts := by
  rw [Config.load_root h.load]
  exact fun hmem => Path.notMem_absolute (notMem_current hnamed hcurrent) _
    (List.dropLast_subset _ hmem)

/-- The library is at the directory that the request names. -/
theorem Begins.settingsFile_eq (h : Begins session request config sources)
    (hnamed : session.disk.tree.isNamed = true) (hcurrent : session.disk.HasCurrent) :
    session.disk.isDirectory (request.path.absolute session.disk.current) = true ∧
      Config.settingsFile session.disk (request.path.absolute session.disk.current) =
        (request.path.absolute session.disk.current).child Config.fileName ∧
      config.root = request.path.absolute session.disk.current := by
  have hdown := Path.notMem_absolute (notMem_current hnamed hcurrent) request.path
  have hdirectory := (scan_eq_ok_cases h.scan).1
  rw [Path.absolute_of_root rfl hdown] at hdirectory
  have hfile := Config.settingsFile_of_isDirectory hdirectory rfl hdown
  refine ⟨hdirectory, hfile, ?_⟩
  have hroot := Config.load_root h.load
  rw [← Config.settingsFile, hfile] at hroot
  rw [hroot, Path.parent, Path.child, List.dropLast_concat]

theorem begun_handlers (session : Session) (request : Request) (sources : List SourceModule) :
    (begun session request sources).journal.handlers = session.journal.handlers := by
  rw [begun, Session.note_handlers, Session.note_handlers]

theorem begun_logLocations (session : Session) (request : Request) (sources : List SourceModule) :
    (begun session request sources).logLocations = session.logLocations := by
  rw [Session.logLocations, begun_handlers, Session.logLocations]

theorem begun_changes (session : Session) (request : Request) (sources : List SourceModule) :
    Session.OnlyLogged session.logLocations session.disk (begun session request sources).disk :=
  Session.noteAll_changes session [_, _]

/-- Nothing hinders the work on the modules of a run that nothing is in the way of. -/
theorem Begins.unhindered (h : Begins session request config sources)
    (hclear : Clear (taskFor request circumstances config) session.disk sources index)
    (hapart : LogClear (taskFor request circumstances config) session.disk
      session.logLocations sources) :
    (taskFor request circumstances config).Unhindered session.disk
      session.logLocations sources := by
  have hroot := h.root_down hclear.named hclear.current
  have houtput : ".." ∉ config.outputRoot.parts := Path.notMem_joinText hroot hclear.outputDirectory
  have hinside := hclear.sourceDirectory
  have hplain {source : SourceModule} (hsource : source ∈ sources) : IsPlain source.path :=
    (scan_path_isPlain hclear.named hclear.current hinside h.scan hsource).1
  have htarget {source : SourceModule} (hsource : source ∈ sources)
      (hmade : (session.disk.makeDirectories (source.bindingPath config.outputRoot).parent).2 = none) :
      IsPlain (source.bindingPath config.outputRoot) :=
    bindingPath_isPlain hclear.named hclear.current h.scan hsource houtput hmade
  have hunread {source other : SourceModule} (hsource : source ∈ sources) (_ : other ∈ sources) :
      session.disk.place source.path ≠ session.disk.place (other.bindingPath config.outputRoot) :=
    place_path_ne hclear.named h.scan hsource other config.outputRoot
  revert hclear hapart
  have hconfig : (taskFor request circumstances config).config = config := rfl
  generalize taskFor request circumstances config = task at hconfig ⊢
  intro hclear hapart
  subst hconfig
  refine ⟨hclear.current, hclear.writes, fun source hsource => hplain hsource,
    fun source hsource hsupports => htarget hsource (hclear.made source hsource hsupports), ?_,
    fun source hsource other hother => hunread hsource hother, .of_down hclear.templatesDirectory _,
    fun location hlog => (hapart location hlog).2.1, fun location hlog => (hapart location hlog).2.2,
    hclear.readFaults,
    fun source hsource hsupports =>
      ⟨hclear.directoryFaults source hsource, hclear.made source hsource hsupports⟩, ?_, ?_, hclear.encoded⟩
  · intro source hsource other hother hne
    have hsymm : Std.Symm fun source other : SourceModule =>
        Apart (session.disk.place (task.target source)) (session.disk.place (task.target other)) :=
      ⟨fun _ _ => Apart.symm⟩
    exact hclear.apart.forall hsource hother hne
  · intro source hsource hsome
    have hsupports := Task.functionsOf?_isSome_supports hsome
    have hpath : IsPlain (task.target source) := htarget hsource (hclear.made source hsource hsupports)
    refine ⟨hclear.writeFaults source hsource, fun hdirectory => ?_⟩
    have hvacant := hclear.vacant source hsource hsome
    rw [hpath.place_eq] at hdirectory
    rw [isDirectory_iff.2 ⟨hpath.noNull, leadsTo_of_sight hpath.down hdirectory⟩] at hvacant
    exact absurd hvacant (by simp)
  · intro source hsource functions hfunctions
    exact Task.exists_layOut hclear.platform (hclear.template source hsource functions hfunctions)

/-! ### The end of a run -/

section clear

variable {task : Task} {start disk : Disk} {log : List Location}

theorem Clear.nodup (h : Clear task start sources index) : sources.Nodup := by
  refine h.apart.imp fun hapart heq => ?_
  rw [heq] at hapart
  exact hapart.1 (List.prefix_refl _)

theorem Clear.indexPath_isPlain (h : Clear task start sources index)
    (hroot : ".." ∉ task.config.root.parts) : IsPlain task.config.indexPath := by
  refine ⟨Path.notMem_joinText hroot h.indexFile, ?_⟩
  have hindex := h.index
  cases index with
  | none => exact (find?_eq_none_of_read hindex).1
  | some file =>
    rw [HasIndex, find?] at hindex
    cases hlocate : start.locate task.config.indexPath with
    | ok location => exact (locate_eq_ok_iff.1 hlocate).1
    | error error =>
      rw [hlocate] at hindex
      exact absurd hindex (by simp)

theorem Clear.file_of_mayWrite (h : Clear task start sources index) {above : Location}
    (habove : above <+: start.place task.config.indexPath)
    (hwrite : task.MayWrite start log sources above) :
    ∃ content mode, start.tree.sight? above = some (.file content mode) := by
  rcases hwrite with ⟨source, hsource, -, rfl⟩ | ⟨-, hthere⟩
  · exact absurd habove (h.notAboveIndex source hsource)
  · exact hthere

/-- The work on the modules leaves the index alone, and what an update of it needs. -/
theorem Clear.ready (h : Clear task start sources index) (hapart : LogClear task start log sources)
    (hunhindered : task.Unhindered start log sources) (hroot : ".." ∉ task.config.root.parts)
    (hbeside : ∀ source ∈ sources,
      ¬ start.place task.config.indexPath <+: start.place (task.target source))
    (hchanges : task.MayChange start log sources start disk) :
    Index.Ready disk task.config.indexPath (start.place task.config.indexPath) index := by
  have hplain := h.indexPath_isPlain hroot
  have hcurrent := hchanges.keeps.hasCurrent h.current
  have hnotLog : start.place task.config.indexPath ∉ log := fun hlog =>
    (hapart _ hlog).1 rfl
  have hwrite : ¬ task.MayWrite start log sources (start.place task.config.indexPath) := by
    rintro (⟨source, hsource, -, heq⟩ | ⟨hlog, -⟩)
    · exact h.notAboveIndex source hsource (heq ▸ List.prefix_refl _)
    · exact hnotLog hlog
  have hmake : ¬ task.MayMake start sources (start.place task.config.indexPath) := by
    rintro ⟨source, hsource, hsupports, hway⟩
    have htarget := hunhindered.target source hsource hsupports
    exact hbeside source hsource (htarget.prefix_of_onTheWay hway)
  have hstarts : Index.StartsFrom disk task.config.indexPath index := by
    have hindex := h.index
    cases index with
    | some file => exact hchanges.find?_eq_file hwrite hindex
    | none =>
      obtain ⟨hnone, hopen⟩ := hplain.isOpen_of_notFound h.current hindex
      refine Index.startsFrom_none hplain hcurrent ?_
        (hopen.of_changes hchanges fun above habove _ => h.file_of_mayWrite habove)
      rw [hchanges.keeps.place_eq, hchanges.sight?_eq hwrite hmake, hnone]
  rw [← hchanges.keeps.place_eq]
  exact .of_startsFrom hcurrent hstarts

/-- The import paths of the entries are those of the modules that export functions. -/
theorem map_importPath_entryOf? (task : Task) (start : Disk) (sources : List SourceModule) :
    (sources.filterMap (task.entryOf? start)).map IndexEntry.importPath =
      (sources.filter fun source => (task.functionsOf? start source).isSome).map fun source =>
        source.importPath task.config.outputDirectory := by
  induction sources with
  | nil => rfl
  | cons source sources ih =>
    cases hfunctions : task.functionsOf? start source with
    | none =>
      have hentry : task.entryOf? start source = none := by
        rw [Task.entryOf?, hfunctions, Option.map_none]
      rw [List.filterMap_cons_none hentry, List.filter_cons_of_neg (by rw [hfunctions]; simp), ih]
    | some functions =>
      have hentry : task.entryOf? start source =
          some ⟨source.importPath task.config.outputDirectory, functions.map (·.name)⟩ := by
        rw [Task.entryOf?, hfunctions, Option.map_some]
      rw [List.filterMap_cons_some hentry, List.filter_cons_of_pos (by rw [hfunctions]; rfl),
        List.map_cons, List.map_cons, ih]

/-- What is left of the work on the modules when the index and the journal have gone on. -/
theorem Clear.runRight (h : Clear task start sources index) (hapart : LogClear task start log sources)
    (hunhindered : task.Unhindered start log sources) (hroot : ".." ∉ task.config.root.parts)
    {worked : Session} {final : Report} (hwork : task.WorkRight start log sources worked final)
    {after : Disk} (hchanges : Changes (fun other => other = start.place task.config.indexPath ∨
      other ∈ log) (Index.AboveIndex worked.disk task.config.indexPath) worked.disk after)
    (hindex : after.find? task.config.indexPath = some (.file
      (Index.merge (Index.textOf index) (final.entries.map IndexEntry.importPath)).toUTF8
      ((index.map IndexFile.mode).getD worked.disk.newFileMode))) :
    RunRight task sources index start after := by
  have hkeeps := hwork.changes.keeps
  have hplain := h.indexPath_isPlain hroot
  refine ⟨fun source hsource functions hfunctions => ?_, fun source hsource hnone below => ?_, ?_⟩
  · obtain ⟨layout, mode, hlayout, hsight⟩ := hwork.bound source hsource functions hfunctions
    refine ⟨layout, mode, hlayout, ?_⟩
    have hsupports : task.supports source = true :=
      Task.functionsOf?_isSome_supports (by rw [hfunctions]; rfl)
    refine (hunhindered.target source hsource hsupports).find?_of_sight
      (hchanges.keeps.hasCurrent (hkeeps.hasCurrent h.current)) ?_
    rw [hchanges.keeps.place_eq, hkeeps.place_eq]
    refine (hchanges.sight?_eq_file_iff ?_).2 hsight
    rintro (heq | hlog)
    · exact h.notAboveIndex source hsource (heq ▸ List.prefix_refl _)
    · exact ((hapart _ hlog).2.2 source hsource).2 (List.prefix_refl _)
  · have hbelow : start.place (task.target source) <+: start.place (task.target source) ++ below :=
      List.prefix_append _ _
    rw [hchanges.sight?_eq, hwork.changes.sight?_eq]
    · rintro (⟨other, hother, hsome, heq⟩ | ⟨hlog, -⟩)
      · have hne : source ≠ other := by
          rintro rfl
          rw [hnone] at hsome
          exact absurd hsome (by simp)
        exact (hunhindered.apart source hsource other hother hne).1 (heq ▸ hbelow)
      · exact ((hapart _ hlog).2.2 source hsource).2 hbelow
    · rintro ⟨other, hother, hsupports, hway⟩
      have htarget := hunhindered.target other hother hsupports
      have habove := htarget.prefix_of_onTheWay hway
      by_cases hsame : source = other
      · subst hsame
        have heq : start.place (task.target source) ++ below = start.place (task.target source) :=
          habove.eq_of_length_le (by simp)
        rw [heq] at hway
        exact htarget.place_notOnTheWay (Task.target_ne_nil task source) hway
      · exact (hunhindered.apart source hsource other hother hsame).1 (hbelow.trans habove)
    · rintro (heq | hlog)
      · exact h.notAboveIndex source hsource (heq ▸ hbelow)
      · exact ((hapart _ hlog).2.2 source hsource).2 hbelow
    · intro hway
      have habove := hplain.prefix_of_onTheWay hway
      rw [hkeeps.place_eq] at habove
      exact h.notAboveIndex source hsource (hbelow.trans habove)
  · rw [hindex, hwork.report.entries, map_importPath_entryOf?, hwork.changes.newFileMode_eq]

end clear

/-- Every run that nothing is in the way of leaves what it should, whatever the number of workers and
however their steps interleave. -/
theorem generate_right (hbegins : Begins session request config sources)
    (hclear : Clear (taskFor request circumstances config) session.disk sources index)
    (hapart : LogClear (taskFor request circumstances config) session.disk
      session.logLocations sources)
    (hbeside : ∀ source ∈ sources, ¬ session.disk.place config.indexPath <+:
      session.disk.place (source.bindingPath config.outputRoot)) :
    ∃ after report, generate session request circumstances = (after, .ok report) ∧
      report.aborted = false ∧
      RunRight (taskFor request circumstances config) sources index session.disk
        after.disk := by
  have hunhindered := hbegins.unhindered hclear hapart
  have hroot := hbegins.root_down hclear.named hclear.current
  rw [hbegins.generate_eq circumstances]
  have hconfig : (taskFor request circumstances config).config = config := rfl
  generalize taskFor request circumstances config = task
    at hclear hapart hunhindered hconfig ⊢
  subst hconfig
  have hbegun := hunhindered.mayChange_of_logged (Changes.refl _ _ _)
    (begun_changes session request sources) sources
  have hlog : (begun session request sources).logLocations = session.logLocations := by
    rw [Session.logLocations, begun_handlers, Session.logLocations]
  have hempty : task.ReportRight session.disk []
      { root := task.config.root, indexPath := task.config.indexPath, dryRun := task.dryRun } :=
    ⟨rfl, rfl, hclear.writes, rfl⟩
  obtain ⟨worked, final, hwork, hright⟩ := hunhindered.work_right hclear.nodup hbegun hlog hempty
    (request.workers.getD task.config.workers) circumstances.events
  have hready := hclear.ready hapart hunhindered hroot hbeside hright.changes
  rw [← hright.report.indexPath] at hready
  obtain ⟨merged, changed, hmerge, hindex⟩ := mergeIndex_right hready hright.report.dryRun
  rw [hright.report.indexPath] at hindex
  refine ⟨merged.note (endMessage { final with indexChanged := changed }),
    { final with indexChanged := changed }, ?_, hright.report.aborted, ?_⟩
  · simp only [generateModules, hwork, hclear.indexFaults, hmerge]
  have hnoted := (Session.note_changes merged (endMessage { final with indexChanged := changed })).mono
    hindex.log
  rw [hright.journal] at hnoted
  have hchanges := hindex.changes
  rw [hright.journal] at hchanges
  have hheld := hindex.held (by
    rw [hright.journal]
    exact fun heq => (hapart _ heq).1 rfl)
  refine hclear.runRight hapart hunhindered hroot hright (hchanges.trans ?_) ?_
  · exact Changes.mono hnoted (fun other h => .inr h.1) fun _ hnone => hnone.elim
  · refine Changes.find?_eq_file hnoted ?_ hheld
    rintro ⟨heq, -⟩
    rw [hchanges.keeps.place_eq, hright.changes.keeps.place_eq] at heq
    exact (hapart _ heq).1 rfl

end generate

namespace Sample

def request : Request where
  path := ⟨.root, []⟩

def settings : Config where
  root := ⟨.root, []⟩

def exporting : SourceModule := ⟨⟨.root, ["rs", "a.rs"]⟩, []⟩

def noText : SourceModule := ⟨⟨.root, ["rs", "b.rs"]⟩, []⟩

/-- A file that has a source suffix and nothing before it, which no language is chosen for. -/
def unnamed : SourceModule := ⟨⟨.root, ["rs", ".rs"]⟩, []⟩

def sourceText : String := "#[no_mangle] pub fn f() \x7b\x7d"

/-- A file that is no text. -/
def noTextTree : Tree := .file "b.rs" ⟨#[0xff]⟩ 0o644 .empty

/-- A library of a module that exports a function and one that is no text. -/
def library : Session where
  disk := { tree := .directory "rs" (.file "a.rs" sourceText.toUTF8 0o644 noTextTree) .empty }

/-- Settings by which the bindings go below the place of the index. -/
def nestedSettings : Config where
  root := ⟨.root, []⟩
  indexFile := "mod"

def nestedTree : Tree :=
  .file ".bunbind.yml" "index_file: mod\n".toUTF8 0o644 (.directory "rs" noTextTree .empty)

def nested : Session where
  disk := { tree := nestedTree }

/-- A library whose log file is in the place of a binding. -/
def logged : Session where
  disk := { tree := .directory "mod" (.file "b.ts" .empty 0o644 .empty) (.directory "rs" noTextTree .empty) }
  journal := { level := .info, handlers := Journal.handlersFor .info (some ["mod", "b.ts"]) }

/-- Settings that bring a template of their own. -/
def templateSettings : Config where
  root := ⟨.root, []⟩
  templatesDirectory := some ⟨.root, ["tpl"]⟩

def templateTree : Tree :=
  .file ".bunbind.yml" "templates_dir: tpl
".toUTF8 0o644
    (.directory "rs" (.file "a.rs" sourceText.toUTF8 0o644 .empty)
      (.directory "tpl" (.file "binding.ts.j2" .empty 0o644 .empty) .empty))

/-- A library whose log file is in the place of the template. -/
def logging : Session where
  disk := { tree := templateTree }
  journal := { level := .info, handlers := Journal.handlersFor .info (some ["tpl", "binding.ts.j2"]) }

def second : SourceModule := ⟨⟨.root, ["rs", "b.rs"]⟩, []⟩

/-- Two modules, and what is beside them. -/
def pairTree (first second : String) (rest : Tree) : Tree :=
  .directory "rs" (.file "a.rs" first.toUTF8 0o644 (.file "b.rs" second.toUTF8 0o644 .empty)) rest

/-- A library whose settings name half a character. -/
def halved : Session where
  disk :=
    { tree := .file ".bunbind.yml" "bin_dir: \"\\ud83d\"\n".toUTF8 0o644
        (pairTree sourceText sourceText .empty) }

def halvedSettings : Config where
  root := ⟨.root, []⟩
  binDirectory := "\ufffd"
  binDirectoryHalved := true

def suffixOnly : Session where
  disk := { tree := .directory "rs" (.file ".rs" sourceText.toUTF8 0o644 .empty) .empty }

/-- Without failures, and with a template that renders and no platform asked for, the rest can be computed. -/
theorem clear {session : Session} {config : Config} {sources : List SourceModule}
    {index : Option IndexFile} (hplatform : config.platform = none)
    (htemplate : ∀ source ∈ sources, ∀ functions fault,
      (taskFor request {} config).layOut source session.disk functions ≠ .error (.stopped (.template fault)))
    (hwhole : config.binDirectoryHalved = false) (hcurrent : session.disk.current = [])
    (hindex : HasIndex session.disk config.indexPath index)
    (hpaths : session.disk.tree.isNamed = true ∧ ".." ∉ (Path.ofText config.sourceDirectory).parts ∧
      ".." ∉ (Path.ofText config.outputDirectory).parts ∧ ".." ∉ (Path.ofText config.indexFile).parts ∧
      ∀ directory ∈ config.templatesDirectory, ".." ∉ directory.parts)
    (hplaces : (sources.Pairwise fun source other =>
      Apart (session.disk.place ((taskFor request {} config).target source))
        (session.disk.place ((taskFor request {} config).target other))) ∧
      ∀ source ∈ sources, ¬ session.disk.place ((taskFor request {} config).target
        source) <+: session.disk.place config.indexPath)
    (hmade : ∀ source ∈ sources, (session.disk.makeDirectories
      ((taskFor request {} config).target source).parent).2 = none ∧
        session.disk.isDirectory ((taskFor request {} config).target source) = false) :
    Clear (taskFor request {} config) session.disk sources index where
  current := hasCurrent_of_top hcurrent
  named := hpaths.1
  writes := rfl
  sourceDirectory := hpaths.2.1
  outputDirectory := hpaths.2.2.1
  indexFile := hpaths.2.2.2.1
  templatesDirectory := hpaths.2.2.2.2
  platform := ⟨.linux, by simp [taskFor, taskOf, planOf, platformOf, request, hplatform]; rfl⟩
  template := fun source hsource functions _ fault => htemplate source hsource functions fault
  encoded := hwhole
  apart := hplaces.1
  notAboveIndex := hplaces.2
  index := hindex
  indexFaults := rfl
  directoryFaults := fun _ _ => rfl
  writeFaults := fun _ _ => rfl
  readFaults := nofun
  made := fun source hsource _ => (hmade source hsource).1
  vacant := fun source hsource _ => (hmade source hsource).2

end Sample

/-- Four libraries on which nothing else is in the way of a run. Where a binding would go below the place
of the index, the first directory that is made takes that place, and there never is an index; where the log
file is in the place of a binding, it does not hold what it held, even if the module gets none; where the log
file is the template, a binding is laid out with what the journal has said by then; and a file that consists
of a source suffix has no language, so it gets no binding whatever it exports. -/
theorem not_right_without_conditions :
    (Begins Sample.nested Sample.request Sample.nestedSettings [Sample.noText] ∧
      Clear (taskFor Sample.request {} Sample.nestedSettings)
        Sample.nested.disk [Sample.noText] none ∧
      LogClear (taskFor Sample.request {} Sample.nestedSettings)
        Sample.nested.disk Sample.nested.logLocations [Sample.noText] ∧
      ¬ RunRight (taskFor Sample.request {} Sample.nestedSettings)
        [Sample.noText] none Sample.nested.disk (generate Sample.nested Sample.request {}).1.disk) ∧
    (Begins Sample.logged Sample.request Sample.settings [Sample.noText] ∧
      Clear (taskFor Sample.request {} Sample.settings)
        Sample.logged.disk [Sample.noText] none ∧
      ¬ RunRight (taskFor Sample.request {} Sample.settings)
        [Sample.noText] none Sample.logged.disk (generate Sample.logged Sample.request {}).1.disk) ∧
    (Begins Sample.logging Sample.request Sample.templateSettings [Sample.exporting] ∧
      Clear (taskFor Sample.request {} Sample.templateSettings)
        Sample.logging.disk [Sample.exporting] none ∧
      ¬ RunRight (taskFor Sample.request {} Sample.templateSettings)
        [Sample.exporting] none Sample.logging.disk (generate Sample.logging Sample.request {}).1.disk) ∧
    (Begins Sample.suffixOnly Sample.request Sample.settings [Sample.unnamed] ∧
      Clear (taskFor Sample.request {} Sample.settings)
        Sample.suffixOnly.disk [Sample.unnamed] none ∧
      Language.rust.functionsIn? Sample.sourceText.toUTF8 = some [⟨"f", [], "void", 1⟩] ∧
      (generate Sample.suffixOnly Sample.request {}).1.disk.find?
        (Sample.unnamed.bindingPath Sample.settings.outputRoot) = none) := by
  refine ⟨⟨.of_met (by decide +kernel), ?_, nofun, fun hright => ?_⟩,
    ⟨.of_met (by decide +kernel), ?_, fun hright => ?_⟩,
    ⟨.of_met (by decide +kernel), ?_, fun hright => ?_⟩,
    ⟨.of_met (by decide +kernel), ?_, by decide +kernel, ?_⟩⟩
  · exact Sample.clear rfl (fun source _ => Task.layOut_stock rfl source) rfl rfl rfl (by decide +kernel)
      (by decide +kernel) (by decide +kernel)
  · have hdirectory : (generate Sample.nested Sample.request {}).1.disk.isDirectory
        Sample.nestedSettings.indexPath = true := by decide +kernel
    have hfound : (generate Sample.nested Sample.request {}).1.disk.find?
        Sample.nestedSettings.indexPath = some (.file _ _) := hright.index
    rw [isDirectory, hfound] at hdirectory
    exact absurd hdirectory (by simp [Entry.isDirectory])
  · exact Sample.clear rfl (fun source _ => Task.layOut_stock rfl source) rfl rfl rfl (by decide +kernel)
      (by decide +kernel) (by decide +kernel)
  · have hkept := hright.others Sample.noText List.mem_cons_self (by decide +kernel) []
    exact absurd hkept (by decide +kernel)
  · exact Sample.clear rfl (fun source _ =>
      Task.layOut_of_renders [] (by decide +kernel) (fun _ => ⟨"", rfl⟩) source) rfl rfl rfl
      (by decide +kernel) (by decide +kernel) (by decide +kernel)
  · obtain ⟨layout, mode, hlayout, hfound⟩ := hright.bound Sample.exporting List.mem_cons_self
      [⟨"f", [], "void", 1⟩] (by decide +kernel)
    have hempty : ((taskFor Sample.request {} Sample.templateSettings).layOut Sample.exporting
        Sample.logging.disk [⟨"f", [], "void", 1⟩]).map Layout.content =
        .ok "" := by decide +kernel
    rw [hlayout] at hempty
    have hread := read_eq_ok_iff.2 ⟨mode, hfound⟩
    rw [Except.ok.inj hempty] at hread
    exact absurd hread (by decide +kernel)
  · exact Sample.clear rfl (fun source _ => Task.layOut_stock rfl source) rfl rfl rfl (by decide +kernel)
      (by decide +kernel) (by decide +kernel)
  · have hmissing : (generate Sample.suffixOnly Sample.request {}).1.disk.contains
        (Sample.unnamed.bindingPath Sample.settings.outputRoot) = false := by decide +kernel
    rw [contains, Option.isSome_eq_false_iff, Option.isNone_iff_eq_none] at hmissing
    exact hmissing

theorem Sample.begins_library : Begins library Sample.request settings [exporting, noText] :=
  .of_met (by decide +kernel)

/-- A run on a library of two modules, of which one gets a binding. -/
theorem generate_right_sample :
    Begins Sample.library Sample.request Sample.settings [Sample.exporting, Sample.noText] ∧
      ∃ after report, generate Sample.library Sample.request {} = (after, .ok report) ∧
        after.disk.find? Sample.settings.indexPath =
          some (.file (Index.merge "" ["./mod/a"]).toUTF8 0o644) := by
  have hbegins := Sample.begins_library
  have hclear : Clear (taskFor Sample.request {} Sample.settings)
      Sample.library.disk [Sample.exporting, Sample.noText] none :=
    Sample.clear rfl (fun source _ => Task.layOut_stock rfl source) rfl rfl rfl (by decide +kernel)
      (by decide +kernel) (by decide +kernel)
  have hbeside : ∀ source ∈ [Sample.exporting, Sample.noText],
      ¬ Sample.library.disk.place Sample.settings.indexPath <+:
        Sample.library.disk.place (source.bindingPath Sample.settings.outputRoot) := by decide +kernel
  have himports : (([Sample.exporting, Sample.noText].filter fun source =>
      ((taskFor Sample.request {} Sample.settings).functionsOf? Sample.library.disk source).isSome).map
          fun source => source.importPath (taskFor Sample.request {} Sample.settings).config.outputDirectory) =
        ["./mod/a"] := by decide +kernel
  obtain ⟨after, report, hrun, -, hright⟩ := generate_right hbegins hclear nofun hbeside
  have hheld := hright.index
  rw [himports] at hheld
  exact ⟨hbegins, after, report, hrun, hheld⟩

end FfiBindings.Generation
