import FfiBindings.Proofs.Generation.Ending

/-!
A platform without bindings. No module gets a layout for it, so the work on the modules makes directories, writes
to the log file and to no other (`Passes.onlyDirectories`). What the sources hold stays what it was, and so does
where directories can be made. The first module that comes as far as to functions therefore ends the run, however
many workers there are and however their steps interleave, and without one the platform is not asked for
(`generate_unsupported`).
-/

set_option autoImplicit false
set_option relaxedAutoImplicit false

namespace FfiBindings.Generation

open Disk

variable {log : List Location} {disk middle after start : Disk} {session : Session} {path : Path}

/-! ### Only directories -/

/-- Directories come to the disk, and the log file grows. -/
def OnlyDirectories (log : List Location) (disk after : Disk) : Prop :=
  Changes (fun location => location ∈ log ∧ disk.tree.FileAt location) (fun _ => True) disk after

namespace OnlyDirectories

theorem refl (log : List Location) (disk : Disk) : OnlyDirectories log disk disk :=
  Changes.refl _ _ disk

theorem of_grows {through : Location → Prop} (h : Grows disk after through) : OnlyDirectories log disk after :=
  Changes.of_grows (h.mono fun _ _ => trivial)

theorem of_logged (h : Session.OnlyLogged log disk after) : OnlyDirectories log disk after :=
  Changes.mono h (fun _ hlog => hlog) fun _ hnone => hnone.elim

/-- The files are where they were. -/
theorem fileAt_iff (h : OnlyDirectories log disk after) (location : Location) :
    after.tree.FileAt location ↔ disk.tree.FileAt location := by
  rcases h.sight location with hsame | ⟨hnone, hnew, -⟩ | ⟨⟨-, hthere⟩, -, hnew⟩
  · exact Tree.fileAt_congr hsame
  · exact iff_of_false (fun hfile => hfile.ne_directory hnew) fun hfile => hfile.ne_none hnone
  · exact iff_of_true hnew hthere

theorem trans (hfirst : OnlyDirectories log disk middle) (hsecond : OnlyDirectories log middle after) :
    OnlyDirectories log disk after := by
  refine Changes.trans hfirst (Changes.mono hsecond ?_ fun _ h => h)
  exact fun location hlog => ⟨hlog.1, (hfirst.fileAt_iff location).1 hlog.2⟩

/-- Directories can be made where they could before. -/
theorem makeDirectories_iff (hcurrent : disk.HasCurrent) (h : OnlyDirectories log disk after) :
    (after.makeDirectories path).2 = none ↔ (disk.makeDirectories path).2 = none := by
  rw [makeDirectories_eq_none_iff hcurrent, makeDirectories_eq_none_iff (h.keeps.hasCurrent hcurrent),
    h.keeps.start_eq]
  simp only [h.fileAt_iff]

end OnlyDirectories

namespace Task

variable {task : Task} {source : SourceModule} {error : Platform.Unsupported} {passed : Session → Prop}
  {stage : Stage} {pool : Pool} {sources : List SourceModule}

/-! ### How far a module comes -/

/-- Whether a module comes as far as to functions: the directory of its binding can be made, if the run writes
one, and its source exports some. -/
def exports (task : Task) (start : Disk) (source : SourceModule) : Bool :=
  (task.dryRun || (task.makeDirectory source start).2.isNone) && (task.functionsOf? start source).isSome

/-- The session shows a module as the disk at the start does. -/
structure ShowsModule (task : Task) (start : Disk) (source : SourceModule) (session : Session) : Prop where
  read : task.readSource source session.disk = task.readSource source start
  made : (task.makeDirectory source session.disk).2 = none ↔ (task.makeDirectory source start).2 = none

theorem showsModule_of_onlyDirectories (hcurrent : start.HasCurrent)
    (hfound : ∃ content mode, start.find? source.path = some (.file content mode))
    (hlog : start.place source.path ∉ log) (h : OnlyDirectories log start session.disk) :
    task.ShowsModule start source session := by
  constructor
  · exact readSource_of_changes hfound h fun hthere => hlog hthere.1
  · rw [makeDirectory_eq, makeDirectory_eq, Option.or_eq_none_iff, Option.or_eq_none_iff,
      h.makeDirectories_iff hcurrent]

theorem layOut_unsupported (hplatform : Platform.resolve task.plan.platform = .error error) (source : SourceModule)
    (disk : Disk) (functions : List Rust.ExportedFunction) :
    task.layOut source disk functions = .error (.unsupported error) := by
  simp only [layOut, Plan.bind, hplatform, Except.map]

theorem not_rendered (hplatform : Platform.resolve task.plan.platform = .error error)
    {functions : List Rust.ExportedFunction} {layout : Layout} :
    ¬ task.Rendered passed source functions layout := by
  rintro ⟨session, -, hlayout⟩
  exact absurd ((layOut_unsupported hplatform source session.disk functions).symm.trans hlayout) (by simp)

theorem functionsOf?_of_read {language : Language} {bytes : ByteArray}
    (hlanguage : Language.choose? task.languages source.path = some language)
    (hread : task.readSource source start = .ok bytes) :
    task.functionsOf? start source = language.functionsIn? bytes := by
  simp only [functionsOf?, hlanguage, hread]

theorem exports_of_functionsOf? (h : task.functionsOf? start source = none) :
    task.exports start source = false := by
  rw [exports, h, Option.isSome_none, Bool.and_false]

/-- The modules that come as far as to functions find out that the platform has no bindings, and no others do. -/
theorem Ends.unsupported_iff (hplatform : Platform.resolve task.plan.platform = .error error)
    (hshows : ∀ session, passed session → task.ShowsModule start source session) {outcome : Outcome}
    (h : task.Ends passed source outcome) :
    outcome = .unsupported error ↔ task.exports start source = true := by
  have hneither {outcome : Outcome} (hother : outcome ≠ .unsupported error)
      (hnot : task.exports start source = false) :
      outcome = .unsupported error ↔ task.exports start source = true :=
    iff_of_false hother (by rw [hnot]; simp)
  have hnoFunctions {session : Session} {bytes : ByteArray} (hpassed : passed session)
      (hread : task.readSource source session.disk = .ok bytes)
      (hnone : ∀ language, Language.choose? task.languages source.path = some language →
        language.functionsIn? bytes = none) : task.exports start source = false := by
    rw [(hshows session hpassed).read] at hread
    refine exports_of_functionsOf? ?_
    cases hlanguage : Language.choose? task.languages source.path with
    | none => simp only [functionsOf?, hlanguage]
    | some language => rw [functionsOf?_of_read hlanguage hread, hnone language hlanguage]
  cases h with
  | noLanguage hlanguage =>
    refine hneither (by simp [note]) (exports_of_functionsOf? ?_)
    simp only [functionsOf?, hlanguage]
  | notMade session failure hpassed hwrites hmade =>
    refine hneither (task.refused_ne_unsupported source _ _ error) ?_
    have hstart : (task.makeDirectory source start).2 ≠ none := fun hnone => by
      rw [(hshows session hpassed).made.2 hnone] at hmade
      exact absurd hmade (by simp)
    rw [exports, hwrites, Bool.false_or, Option.isNone_eq_false_iff.2 (Option.isSome_iff_ne_none.2 hstart),
      Bool.false_and]
  | notRead session failure hpassed hmade hread =>
    rw [(hshows session hpassed).read] at hread
    refine hneither (task.refused_ne_unsupported source _ _ error) (exports_of_functionsOf? ?_)
    rw [functionsOf?, hread]
    cases Language.choose? task.languages source.path <;> rfl
  | noText session bytes fault hpassed hmade hread hdecode =>
    refine hneither (by simp [note]) (hnoFunctions hpassed hread fun language _ => ?_)
    simp only [Language.functionsIn?, hdecode]
  | notParsed session language bytes text failure hpassed hmade hlanguage hread hdecode hfunctions =>
    refine hneither (by simp [note]) (hnoFunctions hpassed hread fun other hother => ?_)
    obtain rfl := Option.some.inj (hlanguage.symm.trans hother)
    simp only [Language.functionsIn?, hdecode, hfunctions]
  | empty session language bytes text hpassed hmade hlanguage hread hdecode hfunctions =>
    refine hneither (by simp [note]) (hnoFunctions hpassed hread fun other hother => ?_)
    obtain rfl := Option.some.inj (hlanguage.symm.trans hother)
    simp only [Language.functionsIn?, hdecode, hfunctions]
  | unsupported functions other hmade hfunctions hother =>
    obtain rfl := Except.error.inj (hplatform.symm.trans hother)
    refine iff_of_true rfl ?_
    obtain ⟨session, language, bytes, hpassed, hlanguage, hread, hexported⟩ := hfunctions
    rw [(hshows session hpassed).read] at hread
    rw [exports, functionsOf?_of_read hlanguage hread, hexported, Option.isSome_some, Bool.and_true, Bool.or_eq_true]
    by_cases hdry : task.dryRun = true
    · exact .inl hdry
    · obtain ⟨session, hpassed, hdirectory⟩ := hmade (by simpa using hdry)
      exact .inr (Option.isNone_iff_eq_none.2 ((hshows session hpassed).made.1 hdirectory))
  | notRendered session functions fault hpassed hmade hfunctions hfault =>
    exact absurd ((layOut_unsupported hplatform source session.disk functions).symm.trans hfault) (by simp)
  | notWritten session functions layout failure hpassed hwrites hmade hfunctions hmet =>
    exact absurd hmet (not_rendered hplatform)
  | notEncoded session functions layout hpassed hwrites hmade hfunctions hmet =>
    exact absurd hmet (not_rendered hplatform)
  | bound functions layout hmade hfunctions hmet => exact absurd hmet (not_rendered hplatform)

/-! ### What is written -/

theorem advance_ne_laidOut (hplatform : Platform.resolve task.plan.platform = .error error)
    (hstage : ∀ layout, stage ≠ .laidOut layout) (source : SourceModule) (session : Session) (layout : Layout) :
    (task.advance source session stage).2 ≠ .laidOut layout := by
  cases stage with
  | waiting =>
    rw [advance_waiting_eq]
    rcases (task.prepare source session).2 with outcome | language <;> simp [afterPreparing]
  | prepared language =>
    rw [advance_prepared_eq, read]
    rcases task.readSource source session.disk with failure | bytes
    · simp [afterReading]
    · have hextract := task.extract_eq source language bytes
      dsimp only
      split at hextract
      · rw [hextract, Except.bind, layOut_unsupported hplatform]
        simp [afterReading]
      · obtain ⟨diagnostic, hnoted⟩ := hextract
        rw [hnoted]
        simp [afterReading, Except.bind]
  | laidOut layout => exact absurd rfl (hstage layout)
  | finished outcome => simp [advance]

theorem advance_onlyDirectories (hcurrent : session.disk.HasCurrent) (hstage : ∀ layout, stage ≠ .laidOut layout)
    (source : SourceModule) :
    OnlyDirectories session.logLocations session.disk (task.advance source session stage).1.disk := by
  cases stage with
  | waiting =>
    rw [advance_waiting_eq]
    exact .of_grows (task.prepare_grows source hcurrent)
  | prepared language =>
    rw [advance_prepared_eq]
    exact .of_logged (task.read_onlyLogged source language session)
  | laidOut layout => exact absurd rfl (hstage layout)
  | finished outcome => exact .refl _ _

/-- The run: the work on the modules passes through sessions to whose disks directories and the journal came,
because no job has a layout. -/
theorem Passes.onlyDirectories (hplatform : Platform.resolve task.plan.platform = .error error)
    (hcurrent : session.disk.HasCurrent) {workers : Int} {events : List Event} {report : Report}
    {reached : Session} (h : task.Passes workers events sources session report reached) :
    OnlyDirectories session.logLocations session.disk reached.disk := by
  obtain ⟨front, -, rfl⟩ := h
  have hstart : (Pool.start sources session report).Keeps (fun _ stage => ∀ layout, stage ≠ .laidOut layout)
      (OnlyDirectories session.logLocations session.disk) session.logLocations :=
    .start (fun _ _ _ => nofun) (.refl _ _) report
  refine (hstart.foldl_happen task (fun source passed stage hlog hdisk hstage => ?_)
    (fun disk after hdisk hlogged => hdisk.trans (.of_logged hlogged)) front).disk
  have hstep := task.advance_onlyDirectories (hdisk.keeps.hasCurrent hcurrent) hstage source
  rw [hlog] at hstep
  exact ⟨advance_ne_laidOut hplatform hstage source passed, hdisk.trans hstep⟩

/-- The session that the work on the modules ends with is one that it passes through. -/
theorem passes_work (task : Task) (workers : Int) (events : List Event) (sources : List SourceModule)
    (session : Session) (report : Report) :
    task.Passes workers events sources session report
      (task.work workers events sources session report).1 :=
  ⟨_, List.prefix_refl _, by rw [work_eq_foldl]⟩

/-! ### What is reported -/

theorem Ends.ne_bound (hplatform : Platform.resolve task.plan.platform = .error error) {outcome : Outcome}
    (h : task.Ends passed source outcome) (entry : IndexEntry) (written : Path) :
    outcome ≠ .bound entry written := by
  cases h with
  | bound functions layout hmade hfunctions hlayout =>
    exact absurd hlayout (not_rendered hplatform)
  | notMade => exact task.refused_ne_bound source _ _ entry written
  | notRead => exact task.refused_ne_bound source _ _ entry written
  | notWritten => exact task.refused_ne_bound source _ _ entry written
  | noLanguage => exact nofun
  | noText => exact nofun
  | notParsed => exact nofun
  | empty => exact nofun
  | unsupported => exact nofun
  | notRendered => exact nofun
  | notEncoded => exact nofun

/-- Where the platform has no bindings, modules that do not end the run bring diagnostics alone, and none of them
comes as far as to functions. -/
theorem Accounted.unbound (hplatform : Platform.resolve task.plan.platform = .error error)
    {modules : List SourceModule} {entries : List IndexEntry} {written : List Path} {diagnostics : List Diagnostic}
    (hshows : ∀ source ∈ modules, ∀ session, passed session → task.ShowsModule start source session)
    (h : task.Accounted passed modules entries written diagnostics) :
    entries = [] ∧ written = [] ∧ ∀ source ∈ modules, task.exports start source = false := by
  induction h with
  | nil => exact ⟨rfl, rfl, nofun⟩
  | bound layout hends hrest ih => exact absurd rfl (hends.ne_bound hplatform _ _)
  | noted severity message hends hrest ih =>
    obtain ⟨hsource, hmodules⟩ := List.forall_mem_cons.1 hshows
    obtain ⟨hentries, hwritten, hnone⟩ := ih hmodules
    refine ⟨hentries, hwritten, List.forall_mem_cons.2 ⟨?_, hnone⟩⟩
    rw [Bool.eq_false_iff]
    exact fun hexports => absurd ((hends.unsupported_iff hplatform hsource).2 hexports) nofun

/-- Where the directory of a binding can be made, its path is one that a disk can have. -/
theorem hasNull_of_makeDirectory (hcurrent : disk.HasCurrent) (h : (task.makeDirectory source disk).2 = none) :
    hasNull (task.target source).parent = false := by
  rw [makeDirectory_eq] at h
  exact (isDirectory_iff.1 (isDirectory_of_tried hcurrent h)).1

/-! ### The run -/

/-- There is one first member of a list that passes a test. -/
theorem first_unique {α : Type} {test : α → Bool} {before front rest back : List α} {first other : α}
    (hlists : before ++ first :: rest = front ++ other :: back)
    (hbefore : ∀ member ∈ before, test member = false) (hfirst : test first = true)
    (hfront : ∀ member ∈ front, test member = false) (hother : test other = true) :
    before = front ∧ first = other := by
  have htaken {front back : List α} {other : α} (hfront : ∀ member ∈ front, test member = false)
      (hother : test other = true) : (front ++ other :: back).takeWhile (fun member => !test member) = front := by
    rw [List.takeWhile_append_of_pos fun member hmember => by rw [hfront member hmember]; rfl,
      List.takeWhile_cons_of_neg (by rw [hother]; simp), List.append_nil]
  have hsame : before = front := by
    rw [← htaken hbefore hfirst, hlists]
    exact htaken hfront hother
  subst hsame
  exact ⟨rfl, (List.cons.inj (List.append_cancel_left hlists)).1⟩

end Task

/-- A run that is aborted by a module ends with the work on the modules. -/
theorem Begins.generate_of_aborted {request : Request} {circumstances : Circumstances} {config : Config}
    {sources : List SourceModule} {report : Report} (h : Begins session request config sources)
    (haborted : (worked session request circumstances config sources).2 = .error (.aborted report)) :
    generate session request circumstances =
      ((worked session request circumstances config sources).1, .ok report) := by
  rw [h.generate_eq, generateModules_eq, ← worked_eq]
  revert haborted
  rcases worked session request circumstances config sources with ⟨after, result⟩
  rintro rfl
  rfl

/-- Directories come to the disks that the work on the modules of a run passes through, and what the journal writes. -/
theorem onlyDirectories_of_passedBy (hcurrent : session.disk.HasCurrent) {request : Request}
    {circumstances : Circumstances} {config : Config} {sources : List SourceModule} {error : Platform.Unsupported}
    (hplatform : Platform.resolve (platformOf request config) = .error error) {reached : Session}
    (h : PassedBy session request circumstances config sources reached) :
    OnlyDirectories session.logLocations session.disk reached.disk := by
  have hbegun : OnlyDirectories session.logLocations session.disk (begun session request sources).disk :=
    .of_logged (begun_changes session request sources)
  have hreached := Task.Passes.onlyDirectories hplatform (hbegun.keeps.hasCurrent hcurrent) h
  rw [begun_logLocations] at hreached
  exact hbegun.trans hreached

/-- Where a module stops the run, no directory of a binding can be made, so no module comes as far as to functions. -/
theorem Begins.exports_of_stopped (hproper : session.disk.tree.isProper = true) (hcurrent : session.disk.HasCurrent)
    {request : Request} {circumstances : Circumstances} {config : Config} {sources : List SourceModule}
    (hbegins : Begins session request config sources) {error : Platform.Unsupported}
    (hplatform : Platform.resolve (platformOf request config) = .error error) {stopped source : SourceModule}
    (hstopped : stopped ∈ sources) (hsource : source ∈ sources)
    (hmedium : (taskFor request circumstances config).MediumFails stopped) {failure : RunError}
    (h : (taskFor request circumstances config).Ends
      (PassedBy session request circumstances config sources) stopped (.stopped failure)) :
    (taskFor request circumstances config).exports session.disk source = false := by
  obtain ⟨hwrites, ⟨-, hnull⟩ | ⟨-, functions, layout, hlayout, -⟩⟩ :=
    hbegins.stopped hproper hstopped (fun _ _ _ _ => by rw [Task.layOut_unsupported hplatform]; simp) hmedium h
  swap
  · exact absurd hlayout (Task.not_rendered hplatform)
  rw [Bool.eq_false_iff]
  intro hexports
  rw [Task.exports, show Task.dryRun _ = false from hwrites, Bool.false_or, Bool.and_eq_true,
    Option.isNone_iff_eq_none] at hexports
  have hmade := Task.hasNull_of_makeDirectory hcurrent hexports.1
  rw [Task.target, (hasNull_bindingPath (Tree.isNamed_of_isProper hproper) hbegins.scan hsource _).1] at hmade
  exact absurd (hmade.symm.trans hnull) (by simp)

/-- Where the platform has no bindings, the first module that comes as far as to functions aborts the run, whatever
the others come to and however they are worked on: the report has the diagnostics of the modules before it and the
one that names the platform, and nothing comes to the disk but directories and what the journal writes to its file.
If there is no such module, the run is not aborted before the index. -/
theorem generate_unsupported (hproper : session.disk.tree.isProper = true) (hcurrent : session.disk.HasCurrent)
    {request : Request} {circumstances : Circumstances} {config : Config} {sources : List SourceModule}
    (hbegins : Begins session request config sources) {error : Platform.Unsupported}
    (hplatform : Platform.resolve (platformOf request config) = .error error)
    (hmedium : ∀ source ∈ sources, (taskFor request circumstances config).MediumFails source)
    (hlog : ∀ source ∈ sources, session.disk.place source.path ∉ session.logLocations) :
    let task := taskFor request circumstances config
    let passed := PassedBy session request circumstances config sources
    (∀ before source rest, sources = before ++ source :: rest →
      (∀ other ∈ before, task.exports session.disk other = false) → task.exports session.disk source = true →
      ∃ after report diagnostics, generate session request circumstances = (after, .ok report) ∧
        report.aborted = true ∧ report.status = .failed ∧ report.entries = [] ∧ report.written = [] ∧
        report.indexChanged = false ∧ task.Accounted passed before [] [] diagnostics ∧
        report.diagnostics = diagnostics ++
          [⟨.error, displayed source.path config.root, error.message⟩] ∧
        OnlyDirectories session.logLocations session.disk after.disk) ∧
    ((∀ source ∈ sources, task.exports session.disk source = false) →
      ∀ report, (worked session request circumstances config sources).2 ≠ .error (.aborted report)) := by
  intro task passed
  have hshows : ∀ source ∈ sources, ∀ reached, passed reached → task.ShowsModule session.disk source reached :=
    fun source hsource reached hreached => Task.showsModule_of_onlyDirectories hcurrent
      (scan_find? hproper hcurrent hbegins.scan hsource) (hlog source hsource)
      (onlyDirectories_of_passedBy hcurrent hplatform hreached)
  have hafter := onlyDirectories_of_passedBy hcurrent hplatform (task.passes_work
    (request.workers.getD config.workers) circumstances.events sources (begun session request sources) task.firstReport)
  obtain ⟨modules, entries, written, diagnostics, haccounted, ⟨rfl, hwork⟩ | ⟨first, failure, hprefix, hends, hwork⟩ |
    ⟨stopped, failure, hprefix, hends, hwork⟩⟩ := task.work_accounted (request.workers.getD config.workers)
      circumstances.events sources (begun session request sources) task.firstReport
  · obtain ⟨-, -, hnone⟩ := haccounted.unbound hplatform hshows
    refine ⟨fun before source rest hsources _ hexports => ?_, fun _ report haborted => ?_⟩
    · have hmem : source ∈ modules := by
        rw [hsources]
        exact List.mem_append_right _ List.mem_cons_self
      exact absurd hexports (by rw [hnone source hmem]; simp)
    · exact absurd (hwork.symm.trans haborted) (by simp)
  · obtain ⟨tail, htail⟩ := hprefix
    have hmodules (source : SourceModule) (hsource : source ∈ modules) : source ∈ sources := by
      rw [← htail]
      exact List.mem_append_left _ (List.mem_append_left _ hsource)
    have hmem : first ∈ sources := by
      rw [← htail]
      exact List.mem_append_left _ (List.mem_append_right _ List.mem_cons_self)
    obtain rfl := Except.error.inj (hplatform.symm.trans hends.platform)
    have hfirst := (hends.unsupported_iff hplatform (hshows first hmem)).1 rfl
    obtain ⟨rfl, rfl, hnone⟩ :=
      haccounted.unbound hplatform fun source hsource => hshows source (hmodules source hsource)
    refine ⟨fun before source rest hsources hbefore hexports => ?_, fun hall => ?_⟩
    · rw [List.append_assoc, List.singleton_append] at htail
      obtain ⟨rfl, rfl⟩ := Task.first_unique (hsources.symm.trans htail.symm) hbefore hexports hnone hfirst
      exact ⟨_, _, diagnostics, hbegins.generate_of_aborted hwork, rfl, rfl, rfl, rfl, rfl, haccounted, rfl, hafter⟩
    · exact absurd hfirst (by rw [hall first hmem]; simp)
  · have hmem : stopped ∈ sources := hprefix.subset (List.mem_append_right _ List.mem_cons_self)
    refine ⟨fun before source rest hsources _ hexports => ?_, fun _ report haborted => ?_⟩
    · have hsource : source ∈ sources := by
        rw [hsources]
        exact List.mem_append_right _ List.mem_cons_self
      have hnone :=
        hbegins.exports_of_stopped hproper hcurrent hplatform hmem hsource (hmedium stopped hmem) hends
      exact absurd (hnone.symm.trans hexports) (by simp)
    · exact absurd (hwork.symm.trans haborted) (by simp)

namespace Sample

def foreignRequest : Request where
  path := ⟨.root, []⟩
  platform := some "freebsd"

def emptyRequest : Request where
  path := ⟨.root, []⟩
  platform := some ""

def lateTree : Tree :=
  .file ".rs" .empty 0o644 (.file "a.rs" sourceText.toUTF8 0o644 .empty)

/-- A library of a file that no language is chosen for and of a module that exports a function. -/
def late : Session where
  disk := { tree := .directory "rs" lateTree .empty }

def watchedTree : Tree :=
  .file "run.log" .empty 0o644 (.directory "rs" (.file "a.rs" sourceText.toUTF8 0o644 .empty) .empty)

/-- A library of a module that exports a function, and a log file that the journal goes to. -/
def watched : Session where
  disk := { tree := watchedTree }
  journal := { level := .info, handlers := Journal.handlersFor .info (some ["run.log"]) }

end Sample

/-- A run for a platform without bindings, on a file that is passed over and a module that exports a function. -/
theorem generate_unsupported_late :
    ∃ after report, generate Sample.late Sample.foreignRequest {} = (after, .ok report) ∧
      report.status = .failed ∧ report.diagnostics.length = 2 ∧ OnlyDirectories [] Sample.late.disk after.disk := by
  have hbegins : Begins Sample.late Sample.foreignRequest Sample.settings [Sample.unnamed, Sample.exporting] :=
    .of_met (by decide +kernel)
  have hplatform : Platform.resolve (platformOf Sample.foreignRequest Sample.settings) = .error ⟨"freebsd"⟩ := by
    decide +kernel
  have hmedium : ∀ source ∈ [Sample.unnamed, Sample.exporting],
      (taskFor Sample.foreignRequest {} Sample.settings).MediumFails source :=
    fun _ _ => ⟨nofun, nofun, nofun⟩
  obtain ⟨hexports, -⟩ := generate_unsupported (by decide +kernel) (hasCurrent_of_top rfl) hbegins hplatform hmedium
    fun _ _ => nofun
  obtain ⟨after, report, diagnostics, hrun, -, hstatus, -, -, -, haccounted, hlast, hafter⟩ :=
    hexports [Sample.unnamed] Sample.exporting [] rfl (by decide +kernel) (by decide +kernel)
  refine ⟨after, report, hrun, hstatus, ?_, hafter⟩
  have hlength := haccounted.length_modules
  rw [List.length_nil, Nat.zero_add] at hlength
  rw [hlast, List.length_append, hlength]
  rfl

/-- Two runs with a platform name that means no platform. An empty name counts as none where it is asked for, so
the run is not aborted; and what the journal writes to a log file changes that file. -/
theorem not_unsupported_without_conditions :
    (Begins Sample.library Sample.emptyRequest Sample.settings [Sample.exporting, Sample.noText] ∧
      Platform.resolve Sample.emptyRequest.platform = .error ⟨""⟩ ∧
      (taskFor Sample.emptyRequest {} Sample.settings).exports
        Sample.library.disk Sample.exporting = true ∧
      (generate Sample.library Sample.emptyRequest {}).2.map Report.aborted = .ok false) ∧
    (Begins Sample.watched Sample.foreignRequest Sample.settings [Sample.exporting] ∧
      Platform.resolve Sample.foreignRequest.platform = .error ⟨"freebsd"⟩ ∧
      (taskFor Sample.foreignRequest {} Sample.settings).exports
        Sample.watched.disk Sample.exporting = true ∧
      (generate Sample.watched Sample.foreignRequest {}).1.disk.tree.sight? ["run.log"] ≠
        Sample.watched.disk.tree.sight? ["run.log"]) := by
  have hlibrary : Begins Sample.library Sample.emptyRequest Sample.settings [Sample.exporting, Sample.noText] :=
    .of_met (by decide +kernel)
  have hwatched : Begins Sample.watched Sample.foreignRequest Sample.settings [Sample.exporting] :=
    .of_met (by decide +kernel)
  refine ⟨⟨hlibrary, by decide +kernel, by decide +kernel, ?_⟩, ⟨hwatched, by decide +kernel, by decide +kernel, ?_⟩⟩
  · rw [hlibrary.generate_eq]
    decide +kernel
  · rw [hwatched.generate_eq]
    decide +kernel

end FfiBindings.Generation
