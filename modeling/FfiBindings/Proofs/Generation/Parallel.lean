import FfiBindings.Proofs.Generation.Merging
import FfiBindings.Proofs.Generation.Quiet
import FfiBindings.Proofs.Source.Discovery

/-!
Any number of workers against one. If no binding is in the place of another one or above it (`Orderly`), a run
comes to the same report and leaves the same disk however many workers there are and however their steps
interleave (`generate_workers`). Each module takes the steps that it takes by itself, so the work on all of
them comes to the same (`Independent.work_alike`), and so does the index after that (`conclude_alike`). A
log file may be written in another order; it is the one file that may differ, and nothing that a run reads may
be in its place. Bindings must have an encoding (`not_workers_without_conditions`).
-/

set_option autoImplicit false
set_option relaxedAutoImplicit false

namespace FfiBindings.Generation

open Disk

/-! ### The work on the modules -/

namespace Task

variable {task : Task} {start before disk other : Disk} {log : List Location}
  {sources : List SourceModule} {source : SourceModule} {session : Session} {report : Report}

/-- Once all of the work is done, the disk does not tell in which order. -/
theorem looksLike_of_done (hsettles : task.Settles start log sources before disk)
    (hdone : ∀ source ∈ sources, task.IsDone source start disk)
    (hsettlesOther : task.Settles start log sources before other)
    (hdoneOther : ∀ source ∈ sources, task.IsDone source start other) : LooksLike log disk other := by
  refine ⟨hsettlesOther.current.trans hsettles.current.symm,
    hsettlesOther.umask.trans hsettles.umask.symm, fun location => ?_⟩
  by_cases hbinding : ∃ source ∈ sources, location = start.place (task.target source)
  · obtain ⟨source, hsource, rfl⟩ := hbinding
    exact .inl ((hdoneOther source hsource).binding.trans (hdone source hsource).binding.symm)
  by_cases hmade : task.AloneDirectories start sources location
  · obtain ⟨source, hsource, hdirectory⟩ := hmade
    refine .inl ?_
    rw [(hdone source hsource).keeps.directory location hdirectory,
      (hdoneOther source hsource).keeps.directory location hdirectory]
  have hkept {after : Disk} (hsettles : task.Settles start log sources before after) :
      after.tree.sight? location = before.tree.sight? location ∨
        (location ∈ log ∧ before.tree.FileAt location ∧ after.tree.FileAt location) := by
    rcases hsettles.sight location with hsame | ⟨-, -, hnew⟩ | ⟨hfile, -, hnew⟩
    · exact .inl hsame
    · exact absurd hnew hmade
    · obtain ⟨hlog, hthere⟩ := hfile.resolve_left hbinding
      exact .inr ⟨hlog, hthere, hnew⟩
  rcases hkept hsettles with hsame | ⟨hlog, hthere, hnew⟩
  · rw [hsame, Tree.fileAt_congr hsame]
    exact hkept hsettlesOther
  · rcases hkept hsettlesOther with hsameOther | ⟨-, -, hnewOther⟩
    · exact .inr ⟨hlog, hnew, (Tree.fileAt_congr hsameOther).2 hthere⟩
    · exact .inr ⟨hlog, hnew, hnewOther⟩

/-- However the work on the modules goes, it comes to the same report and leaves disks that look alike, if no
module halts the run or none changes the disk. -/
theorem Independent.work_alike (h : task.Independent start log sources)
    (hbegin : ∀ source ∈ sources, task.Follows source start 0 session.disk)
    (hlog : session.logLocations = log)
    (hrest : (∃ final, task.reportedAll report (task.aloneSteps start sources) = .ok final) ∨
      ∀ source ∈ sources, ∀ n, task.diskAt source start n = start)
    (workers fewer : Int) (events others : List Event) :
    (task.work workers events sources session report).2 =
        (task.work fewer others sources session report).2 ∧
      LooksLike log (task.work fewer others sources session report).1.disk
        (task.work workers events sources session report).1.disk := by
  have hdone (workers : Int) (events : List Event) : ∀ source ∈ sources,
      task.IsDone source start (task.work workers events sources session report).1.disk := by
    obtain ⟨hreport, -, -, hfollows⟩ := h.work_settled hbegin hlog workers events report
    intro source hsource
    obtain ⟨n, hfollows, hfinished⟩ := hfollows source hsource
    refine hfollows.isDone ?_
    rcases hrest with hok | hidle
    · exact hfinished (by rw [hreport]; exact hok)
    · have hthree : task.diskAt source start 3 = (task.alone source start).1.disk := by
        rw [diskAt, aloneAt_three]
      rw [← hthree, hidle source hsource, hidle source hsource]
  obtain ⟨hreport, -, hsettles, -⟩ := h.work_settled hbegin hlog workers events report
  obtain ⟨hreportFewer, -, hsettlesFewer, -⟩ := h.work_settled hbegin hlog fewer others report
  exact ⟨hreport.trans hreportFewer.symm,
    looksLike_of_done hsettlesFewer (hdone fewer others) hsettles (hdone workers events)⟩

/-- However the work on the modules goes, a run comes to the same report and leaves disks that look alike. -/
theorem Independent.generateModules_alike (h : task.Independent start log sources)
    (hbegin : ∀ source ∈ sources, task.Follows source start 0 session.disk)
    (hlog : session.logLocations = log)
    (hrest : (∃ final, task.reportedAll task.firstReport (task.aloneSteps start sources) = .ok final) ∨
      ∀ source ∈ sources, ∀ n, task.diskAt source start n = start)
    (hdown : ".." ∉ task.config.indexPath.parts) (hcurrent : session.disk.HasCurrent)
    (hspared : session.disk.place task.config.indexPath ∉ log)
    (workers fewer : Int) (events others : List Event) :
    (generateModules task workers events sources session).2 =
        (generateModules task fewer others sources session).2 ∧
      LooksLike log (generateModules task fewer others sources session).1.disk
        (generateModules task workers events sources session).1.disk := by
  obtain ⟨hreport, hlook⟩ := h.work_alike hbegin hlog hrest workers fewer events others
  obtain ⟨-, hjournal, -, -⟩ := h.work_settled hbegin hlog workers events task.firstReport
  obtain ⟨hresult, hjournalFewer, hsettles, -⟩ :=
    h.work_settled hbegin hlog fewer others task.firstReport
  rw [generateModules_eq, generateModules_eq]
  revert hreport hlook hjournal hresult hjournalFewer hsettles
  generalize task.work workers events sources session task.firstReport = many
  generalize task.work fewer others sources session task.firstReport = few
  obtain ⟨sessionMany, result⟩ := many
  obtain ⟨sessionFewer, resultFewer⟩ := few
  intro hreport hlook hjournal hresult hjournalFewer hsettles
  obtain rfl : result = resultFewer := hreport
  rcases result with (aborted | error) | made
  · exact ⟨rfl, hlook⟩
  · exact ⟨rfl, hlook⟩
  · obtain ⟨hindex, -⟩ := reportedAll_settings hresult.symm
    have hindex : made.indexPath = task.config.indexPath := hindex
    have hplace := hsettles.keeps.place_eq task.config.indexPath
    refine conclude_alike ?_ (hsettles.keeps.hasCurrent hcurrent) hlook ?_ hjournalFewer hjournal
      task.faults.index
    · rw [hindex]
      exact hdown
    · rw [hindex, hplace]
      exact hspared

end Task

/-! ### The run -/

section generate

variable {session : Session} {request : Request} {circumstances : Circumstances} {config : Config}
  {sources : List SourceModule} {task : Task} {start : Disk} {log : List Location}

/-- No path of the settings leads out of a directory again, and no binding is in the place of another one
or above it. -/
structure Separate (task : Task) (start : Disk) (sources : List SourceModule) : Prop where
  current : start.HasCurrent
  proper : start.tree.isProper = true
  sourceDirectory : ".." ∉ (Path.ofText task.config.sourceDirectory).parts
  outputDirectory : ".." ∉ (Path.ofText task.config.outputDirectory).parts
  indexFile : ".." ∉ (Path.ofText task.config.indexFile).parts
  templatesDirectory : ∀ directory, task.config.templatesDirectory = some directory →
    ".." ∉ directory.parts
  apart : sources.Pairwise fun source other =>
    Apart (start.place (task.target source)) (start.place (task.target other))

/-- The log file is none of the files that the work on the modules reads or makes, and not the index. -/
def LogApart (task : Task) (start : Disk) (log : List Location) (sources : List SourceModule) : Prop :=
  ∀ location ∈ log, location ≠ start.place task.config.indexPath ∧
    ¬ task.IsTemplate start location ∧ ∀ source ∈ sources, location ≠ start.place source.path ∧
      location ≠ start.place (task.target source)

theorem Separate.nodup (h : Separate task start sources) : sources.Nodup := by
  refine h.apart.imp fun hapart heq => ?_
  rw [heq] at hapart
  exact hapart.1 (List.prefix_refl _)

/-- The modules of a run are independent if their bindings are separate. -/
theorem Begins.independent (h : Begins session request config sources)
    (hseparate : Separate (taskFor request circumstances config) session.disk sources)
    (hapart : LogApart (taskFor request circumstances config) session.disk log sources) :
    (taskFor request circumstances config).Independent session.disk log sources := by
  have hnamed := Tree.isNamed_of_isProper hseparate.proper
  have hcurrent := hseparate.current
  have houtput : ".." ∉ config.outputRoot.parts :=
    Path.notMem_joinText (h.root_down hnamed hcurrent) hseparate.outputDirectory
  have hunread (source : SourceModule) (hsource : source ∈ sources) (other : SourceModule)
      (_ : other ∈ sources) :
      session.disk.place source.path ≠ session.disk.place (other.bindingPath config.outputRoot) :=
    place_path_ne hnamed h.scan hsource other config.outputRoot
  refine ⟨hseparate.nodup, fun source hsource => ?_, fun source hsource other hother hne => ?_, hunread,
    fun location hlog source hsource => ?_⟩
  · obtain ⟨hparent, htarget⟩ := hasNull_bindingPath hnamed h.scan hsource config.outputRoot
    exact ⟨hcurrent, (scan_path_isPlain hnamed hcurrent hseparate.sourceDirectory h.scan hsource).1,
      (bindingPath_down hnamed h.scan hsource houtput).1, fun hnull => htarget.trans (hparent.symm.trans hnull),
      hunread source hsource source hsource, scan_fileAt hseparate.proper h.scan hsource,
      .of_down hseparate.templatesDirectory _⟩
  · have hsymm : Std.Symm fun source other : SourceModule =>
        Apart (session.disk.place ((taskFor request circumstances config).target source))
          (session.disk.place ((taskFor request circumstances config).target other)) :=
      ⟨fun _ _ => Apart.symm⟩
    exact hseparate.apart.forall hsource hother hne
  · obtain ⟨-, htemplate, hbesides⟩ := hapart location hlog
    obtain ⟨hsourceApart, htargetApart⟩ := hbesides source hsource
    exact ⟨fun hreads => hreads.elim hsourceApart htemplate, htargetApart⟩

/-- When the order of the work does not matter: the bindings are separate, the platform is supported, the
template has a text for every module, and the medium fails in its own ways only. -/
structure Orderly (task : Task) (start : Disk) (sources : List SourceModule) : Prop
    extends Separate task start sources where
  platform : ∃ platform, Platform.resolve task.plan.platform = .ok platform
  template : ∀ source ∈ sources, ∀ functions, task.functionsOf? start source = some functions →
    ∀ fault, task.layOut source start functions ≠ .error (.stopped (.template fault))
  medium : ∀ source ∈ sources, task.MediumFails source

/-- In an orderly run whose bindings have an encoding either no module halts it, or none changes the disk. -/
theorem Orderly.quiet_or_idle (h : Orderly task start sources) (hwhole : task.config.binDirectoryHalved = false)
    (hindependent : task.Independent start log sources)
    (hnulls : ∀ source ∈ sources, hasNull (task.target source).parent = hasNull task.config.outputRoot ∧
      hasNull (task.target source) = hasNull task.config.outputRoot) (report : Report) :
    (∃ final, task.reportedAll report (task.aloneSteps start sources) = .ok final) ∨
      ∀ source ∈ sources, ∀ n, task.diskAt source start n = start := by
  by_cases hidle : task.dryRun = false ∧ hasNull task.config.outputRoot = true
  · refine .inr fun source hsource n => ?_
    exact Task.diskAt_idle hidle.1 (h.medium source hsource) ((hnulls source hsource).1.trans hidle.2) n
  · refine .inl (task.reportedAll_of_quiet report fun step hstep => ?_)
    obtain ⟨source, hsource, hpair⟩ := List.mem_map.1 hstep
    rw [← hpair]
    refine Task.halts_alone (hindependent.steady source hsource) (h.medium source hsource)
      ⟨h.platform, h.template source hsource, hwhole⟩ fun hwrites => ?_
    refine (hnulls source hsource).2.trans ?_
    by_contra hnull
    exact hidle ⟨hwrites, by simpa using hnull⟩

/-- A run begins alike with any number of workers. -/
theorem Begins.withWorkers (h : Begins session request config sources) (workers : Option Int) :
    Begins session { request with workers } config sources :=
  ⟨h.noNull, h.load, h.scan⟩

/-- What is read after two runs that leave disks that look alike is the same, and it is what the work on their
modules leaves. -/
theorem Begins.read_alike {asked : Request} {others : Circumstances}
    (h : Begins session request config sources) (hasked : Begins session asked config sources)
    (hlook : LooksLike log (generate session request circumstances).1.disk
      (generate session asked others).1.disk) (path : Path)
    (hspared : (generateModules (taskFor request circumstances config) (request.workers.getD config.workers)
      circumstances.events sources (begun session request sources)).1.disk.place path ∉ log) :
    (generateModules (taskFor asked others config) (asked.workers.getD config.workers)
        others.events sources (begun session asked sources)).1.disk.read path =
      (generateModules (taskFor request circumstances config) (request.workers.getD config.workers)
        circumstances.events sources (begun session request sources)).1.disk.read path := by
  rw [h.generate_eq, hasked.generate_eq] at hlook
  exact hlook.read_eq hspared

/-- A run that begins comes to the same with any number of workers as with one, if it is orderly. -/
theorem Begins.workers_alike (hbegins : Begins session request config sources)
    (horderly : Orderly (taskFor request circumstances config) session.disk sources)
    (hwhole : config.binDirectoryHalved = false)
    (hapart : LogApart (taskFor request circumstances config) session.disk
      session.logLocations sources) (workers : Option Int) (events : List Event) :
    (generate session { request with workers } { circumstances with events }).2 =
        (generate session { request with workers := some 1 } circumstances).2 ∧
      LooksLike session.logLocations
        (generate session { request with workers := some 1 } circumstances).1.disk
        (generate session { request with workers } { circumstances with events }).1.disk := by
  have hindependent := hbegins.independent horderly.toSeparate hapart
  have hnamed := Tree.isNamed_of_isProper horderly.proper
  have hquiet := horderly.quiet_or_idle hwhole hindependent
    (fun source hsource => hasNull_bindingPath hnamed hbegins.scan hsource config.outputRoot)
    (taskFor request circumstances config).firstReport
  have hlogged := begun_changes session request sources
  have hbegin : ∀ source ∈ sources, (taskFor request circumstances config).Follows source
      session.disk 0 (begun session request sources).disk := fun source hsource =>
    hindependent.follows_of_logged hsource (.refl _ source session.disk) hlogged
  have hdown : ".." ∉ config.indexPath.parts :=
    Path.notMem_joinText (hbegins.root_down hnamed horderly.current) horderly.indexFile
  have hspared : (begun session request sources).disk.place config.indexPath ∉ session.logLocations := by
    intro hthere
    rw [hlogged.keeps.place_eq] at hthere
    exact (hapart _ hthere).1 rfl
  rw [(hbegins.withWorkers workers).generate_eq, (hbegins.withWorkers (some 1)).generate_eq]
  exact hindependent.generateModules_alike hbegin (begun_logLocations session request sources) hquiet hdown
    (hlogged.keeps.hasCurrent horderly.current) hspared (workers.getD config.workers) 1 events
    circumstances.events

/-- A run begins in one way. -/
theorem Begins.unique {other : Config} {others : List SourceModule} (h : Begins session request config sources)
    (hother : Begins session request other others) : config = other ∧ sources = others := by
  obtain rfl := Except.ok.inj (h.load.symm.trans hother.load)
  exact ⟨rfl, Except.ok.inj (h.scan.symm.trans hother.scan)⟩

/-- However many workers there are and however their steps interleave, an orderly run whose bindings have an
encoding comes to the same report as with one worker, or stops on the same error, and leaves the same disk but
for what the log file holds, which is none of the files that the run reads or makes. -/
theorem generate_workers
    (horderly : ∀ config sources, Begins session request config sources →
      Orderly (taskFor request circumstances config) session.disk sources ∧
        config.binDirectoryHalved = false ∧
        LogApart (taskFor request circumstances config) session.disk session.logLocations
          sources) (workers : Option Int) (events : List Event) :
    (generate session { request with workers } { circumstances with events }).2 =
        (generate session { request with workers := some 1 } circumstances).2 ∧
      LooksLike session.logLocations
        (generate session { request with workers := some 1 } circumstances).1.disk
        (generate session { request with workers } { circumstances with events }).1.disk := by
  rcases begins_or_stops session request with ⟨config, sources, hbegins⟩ | ⟨told, error, hstops⟩
  · obtain ⟨horderly, hwhole, hapart⟩ := horderly config sources hbegins
    exact hbegins.workers_alike horderly hwhole hapart workers events
  · rw [hstops { request with workers } rfl, hstops { request with workers := some 1 } rfl]
    exact ⟨rfl, LooksLike.refl _ _⟩

/-- Where the current directory is the topmost one, the rest can be computed. -/
theorem Sample.separate (hcurrent : session.disk.current = [])
    (hpaths : session.disk.tree.isProper = true ∧ ".." ∉ (Path.ofText config.sourceDirectory).parts ∧
      ".." ∉ (Path.ofText config.outputDirectory).parts ∧ ".." ∉ (Path.ofText config.indexFile).parts ∧
      ∀ directory ∈ config.templatesDirectory, ".." ∉ directory.parts)
    (hplaces : sources.Pairwise fun source other =>
      Apart (session.disk.place ((taskFor request {} config).target source))
        (session.disk.place ((taskFor request {} config).target other))) :
    Separate (taskFor request {} config) session.disk sources where
  current := hasCurrent_of_top hcurrent
  proper := hpaths.1
  sourceDirectory := hpaths.2.1
  outputDirectory := hpaths.2.2.1
  indexFile := hpaths.2.2.2.1
  templatesDirectory := hpaths.2.2.2.2
  apart := hplaces

end generate

namespace Sample

/-- Without failures, and with a template that renders and no platform asked for, an order is what separation is. -/
theorem orderly {session : Session} {config : Config} {sources : List SourceModule}
    (hplatform : config.platform = none)
    (htemplate : ∀ source ∈ sources, ∀ functions fault,
      (taskFor request {} config).layOut source session.disk functions ≠ .error (.stopped (.template fault)))
    (hseparate : Separate (taskFor request {} config) session.disk sources) :
    Orderly (taskFor request {} config) session.disk sources where
  toSeparate := hseparate
  platform := ⟨.linux, by simp [taskFor, taskOf, planOf, platformOf, request, hplatform]; rfl⟩
  template := fun source hsource functions _ fault => htemplate source hsource functions fault
  medium := fun _ _ => ⟨nofun, nofun, nofun⟩

/-- Without a template of its own, a run has a log file apart from what is in other places. -/
theorem logApart {session : Session} {config : Config} {sources : List SourceModule} {location : Location}
    (htemplate : config.templatesDirectory = none)
    (hplaces : location ≠ session.disk.place config.indexPath ∧ ∀ source ∈ sources,
      location ≠ session.disk.place source.path ∧
        location ≠ session.disk.place ((taskFor request {} config).target source)) :
    LogApart (taskFor request {} config) session.disk [location] sources := by
  intro other hlog
  obtain rfl := List.mem_singleton.1 hlog
  refine ⟨hplaces.1, fun ⟨directory, hsome, _⟩ => ?_, hplaces.2⟩
  exact absurd (hsome.symm.trans htemplate) (by simp)

/-- A library of two modules that export, with a log file. -/
def pair : Session where
  disk := { tree := pairTree sourceText sourceText (.file "run.log" .empty 0o644 .empty) }
  journal := { level := .debug, handlers := Journal.handlersFor .debug (some ["run.log"]) }

/-- A library of two modules that the journal tells different things of, with a log file. -/
def skipping : Session where
  disk :=
    { tree := pairTree "#[no_mangle] pub fn f<T>() \x7b\x7d" "#[no_mangle] pub fn g<T>() \x7b\x7d"
        (.file "run.log" .empty 0o644 .empty) }
  journal := { level := .debug, handlers := Journal.handlersFor .debug (some ["run.log"]) }

/-- A library whose log file is in the place of the template, and whose first module exports nothing. -/
def recited : Session where
  disk :=
    { tree := .file ".bunbind.yml" "templates_dir: tpl\n".toUTF8 0o644
        (pairTree "" sourceText (.directory "tpl" (.file "binding.ts.j2" .empty 0o644 .empty) .empty)) }
  journal := { level := .info, handlers := Journal.handlersFor .info (some ["tpl", "binding.ts.j2"]) }

/-- The second of two workers is ahead of the first. -/
def ahead : List Event := [.advance 1, .advance 1, .advance 1]

end Sample

/-- Two workers, of which the second one is ahead of the first, on a library with a log file. -/
theorem generate_workers_pair :
    Begins Sample.pair Sample.request Sample.settings [Sample.exporting, Sample.second] ∧
      Orderly (taskFor Sample.request {} Sample.settings) Sample.pair.disk
        [Sample.exporting, Sample.second] ∧
      LogApart (taskFor Sample.request {} Sample.settings) Sample.pair.disk [["run.log"]]
        [Sample.exporting, Sample.second] ∧
      (generate Sample.pair { Sample.request with workers := some 2 } { events := Sample.ahead }).2 =
        (generate Sample.pair { Sample.request with workers := some 1 } {}).2 ∧
      LooksLike [["run.log"]]
        (generate Sample.pair { Sample.request with workers := some 1 } {}).1.disk
        (generate Sample.pair { Sample.request with workers := some 2 } { events := Sample.ahead }).1.disk := by
  have hbegins : Begins Sample.pair Sample.request Sample.settings [Sample.exporting, Sample.second] :=
    .of_met (by decide +kernel)
  have horderly : Orderly (taskFor Sample.request {} Sample.settings) Sample.pair.disk
      [Sample.exporting, Sample.second] :=
    Sample.orderly rfl (fun source _ => Task.layOut_stock rfl source)
      (Sample.separate rfl (by decide +kernel) (by decide +kernel))
  have hapart : LogApart (taskFor Sample.request {} Sample.settings) Sample.pair.disk [["run.log"]]
      [Sample.exporting, Sample.second] := Sample.logApart rfl (by decide +kernel)
  have hevery (config : Config) (sources : List SourceModule)
      (hother : Begins Sample.pair Sample.request config sources) :
      Orderly (taskFor Sample.request {} config) Sample.pair.disk sources ∧ config.binDirectoryHalved = false ∧
        LogApart (taskFor Sample.request {} config) Sample.pair.disk Sample.pair.logLocations sources := by
    obtain ⟨rfl, rfl⟩ := hbegins.unique hother
    exact ⟨horderly, rfl, hapart⟩
  exact ⟨hbegins, horderly, hapart, generate_workers hevery (some 2) Sample.ahead⟩

/-- Three libraries on which only one thing each is in the way of workers that come to the same as one. The log
file holds what was done in the order in which it was done; where it is the template, a binding is laid out with
what was done before it; and where the settings name half a character, no binding can be written, so one worker
stops on the first one, while the second of two has brought another file by then. -/
theorem not_workers_without_conditions :
    (Begins Sample.skipping Sample.request Sample.settings [Sample.exporting, Sample.second] ∧
      Orderly (taskFor Sample.request {} Sample.settings) Sample.skipping.disk
        [Sample.exporting, Sample.second] ∧
      LogApart (taskFor Sample.request {} Sample.settings) Sample.skipping.disk Sample.skipping.logLocations
        [Sample.exporting, Sample.second] ∧
      ¬ LooksLike [] (generate Sample.skipping { Sample.request with workers := some 1 } {}).1.disk
        (generate Sample.skipping { Sample.request with workers := some 2 } { events := Sample.ahead }).1.disk) ∧
    (Begins Sample.recited Sample.request Sample.templateSettings [Sample.exporting, Sample.second] ∧
      Orderly (taskFor Sample.request {} Sample.templateSettings) Sample.recited.disk
        [Sample.exporting, Sample.second] ∧
      ¬ LooksLike Sample.recited.logLocations
        (generate Sample.recited { Sample.request with workers := some 1 } {}).1.disk
        (generate Sample.recited { Sample.request with workers := some 2 } { events := Sample.ahead }).1.disk) ∧
    (Begins Sample.halved Sample.request Sample.halvedSettings [Sample.exporting, Sample.second] ∧
      Orderly (taskFor Sample.request {} Sample.halvedSettings) Sample.halved.disk
        [Sample.exporting, Sample.second] ∧
      ¬ LooksLike [] (generate Sample.halved { Sample.request with workers := some 1 } {}).1.disk
        (generate Sample.halved { Sample.request with workers := some 2 } { events := Sample.ahead }).1.disk) := by
  have hskipping : Begins Sample.skipping Sample.request Sample.settings [Sample.exporting, Sample.second] :=
    .of_met (by decide +kernel)
  have hrecited : Begins Sample.recited Sample.request Sample.templateSettings [Sample.exporting, Sample.second] :=
    .of_met (by decide +kernel)
  have hhalved : Begins Sample.halved Sample.request Sample.halvedSettings [Sample.exporting, Sample.second] :=
    .of_met (by decide +kernel)
  refine ⟨⟨hskipping, ?_, ?_, fun hlook => ?_⟩, ⟨hrecited, ?_, fun hlook => ?_⟩, ⟨hhalved, ?_, fun hlook => ?_⟩⟩
  · exact Sample.orderly rfl (fun source _ => Task.layOut_stock rfl source)
      (Sample.separate rfl (by decide +kernel) (by decide +kernel))
  · exact Sample.logApart rfl (by decide +kernel)
  · have hone : Begins Sample.skipping { Sample.request with workers := some 1 } Sample.settings
        [Sample.exporting, Sample.second] := hskipping.withWorkers (some 1)
    have htwo : Begins Sample.skipping { Sample.request with workers := some 2 } Sample.settings
        [Sample.exporting, Sample.second] := hskipping.withWorkers (some 2)
    have hread := hone.read_alike htwo hlook ⟨.root, ["run.log"]⟩ (by simp)
    have hbytes := congrArg (Except.map fun bytes : ByteArray => bytes.data.toList) hread
    exact absurd hbytes (by decide +kernel)
  · exact Sample.orderly rfl (fun source _ =>
      Task.layOut_of_renders [] (by decide +kernel) (fun _ => ⟨"", rfl⟩) source)
      (Sample.separate rfl (by decide +kernel) (by decide +kernel))
  · have hone : Begins Sample.recited { Sample.request with workers := some 1 } Sample.templateSettings
        [Sample.exporting, Sample.second] := hrecited.withWorkers (some 1)
    have htwo : Begins Sample.recited { Sample.request with workers := some 2 } Sample.templateSettings
        [Sample.exporting, Sample.second] := hrecited.withWorkers (some 2)
    have hread := hone.read_alike htwo hlook ⟨.root, ["mod", "b.ts"]⟩ (by decide +kernel)
    have hbytes := congrArg (Except.map ByteArray.size) hread
    exact absurd hbytes (by decide +kernel)
  · exact Sample.orderly rfl (fun source _ => Task.layOut_stock rfl source)
      (Sample.separate rfl (by decide +kernel) (by decide +kernel))
  · have hone : Begins Sample.halved { Sample.request with workers := some 1 } Sample.halvedSettings
        [Sample.exporting, Sample.second] := hhalved.withWorkers (some 1)
    have htwo : Begins Sample.halved { Sample.request with workers := some 2 } Sample.halvedSettings
        [Sample.exporting, Sample.second] := hhalved.withWorkers (some 2)
    have hread := hone.read_alike htwo hlook ⟨.root, ["mod", "b.ts"]⟩ (by simp)
    have hfound := congrArg Except.isOk hread
    exact absurd hfound (by decide +kernel)

end FfiBindings.Generation
