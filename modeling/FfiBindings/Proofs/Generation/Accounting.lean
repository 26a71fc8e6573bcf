import FfiBindings.Proofs.Generation.Merging
import FfiBindings.Proofs.Generation.Outcome

/-!
Every module of a run is accounted for once. A module brings its entry and the path of its binding to a report,
or one diagnostic that names it, and the lists of a report are made up of these in the order of the modules
(`Accounted`): of all modules, or, where the platform has no bindings, of those before the module that finds it
out (`reportedAll_accounted`). The index adds at most one more diagnostic (`generate_accounted`).
-/

set_option autoImplicit false
set_option relaxedAutoImplicit false

namespace FfiBindings

/-- A report with more at the end of its lists. -/
def Report.extended (report : Report) (entries : List IndexEntry) (written : List Path)
    (diagnostics : List Diagnostic) : Report :=
  { report with
    entries := report.entries ++ entries
    written := report.written ++ written
    diagnostics := report.diagnostics ++ diagnostics }

theorem Report.status_ne_failed {report : Report} (h : report.aborted = false) : report.status ≠ .failed := by
  rw [Report.status, h, if_neg Bool.false_ne_true]
  split <;> simp

namespace Generation

open Disk

variable {session after : Session} {request : Request} {circumstances : Circumstances} {config : Config}
  {sources : List SourceModule} {source : SourceModule} {report : Report}

namespace Task

/-! ### What the modules bring -/

/-- The lists are made up of what these modules bring, in their order: the entry and the path of a binding, or
a diagnostic. -/
inductive Accounted (task : Task) (passed : Session → Prop) :
    List SourceModule → List IndexEntry → List Path → List Diagnostic → Prop where
  | nil : Accounted task passed [] [] [] []
  | bound {source : SourceModule} {modules : List SourceModule} {entries : List IndexEntry} {written : List Path}
    {diagnostics : List Diagnostic} (layout : Layout)
    (hends : task.Ends passed source (.bound (task.entry source layout) (task.target source)))
    (hrest : Accounted task passed modules entries written diagnostics) :
    Accounted task passed (source :: modules) (task.entry source layout :: entries)
      (task.target source :: written) diagnostics
  | noted {source : SourceModule} {modules : List SourceModule} {entries : List IndexEntry} {written : List Path}
    {diagnostics : List Diagnostic} (severity : Severity) (message : String)
    (hends : task.Ends passed source (task.note source severity message))
    (hrest : Accounted task passed modules entries written diagnostics) :
    Accounted task passed (source :: modules) entries written
      (⟨severity, displayed source.path task.config.root, message⟩ :: diagnostics)

variable {task : Task} {passed : Session → Prop} {modules : List SourceModule} {entries : List IndexEntry}
  {written : List Path} {diagnostics : List Diagnostic}

/-- Every entry goes with a path. -/
theorem Accounted.length_entries (h : task.Accounted passed modules entries written diagnostics) :
    entries.length = written.length := by
  induction h with
  | nil => rfl
  | bound layout hends hrest ih => rw [List.length_cons, List.length_cons, ih]
  | noted severity message hends hrest ih => exact ih

/-- Every module brings an entry or a diagnostic. -/
theorem Accounted.length_modules (h : task.Accounted passed modules entries written diagnostics) :
    entries.length + diagnostics.length = modules.length := by
  induction h with
  | nil => rfl
  | bound layout hends hrest ih =>
    rw [List.length_cons, List.length_cons, ← ih]
    omega
  | noted severity message hends hrest ih =>
    rw [List.length_cons, List.length_cons, ← ih]
    omega

theorem refused_cases (task : Task) (source : SourceModule) (attempt : String) (error : FileError) :
    (∃ message, task.refused source attempt error = task.note source .error message) ∨
      task.refused source attempt error = .stopped (.file .nullInPath) := by
  cases error with
  | refused refusal path => exact .inl ⟨_, rfl⟩
  | failed message => exact .inl ⟨_, rfl⟩
  | nullInPath => exact .inr rfl

/-- What a module comes to: a binding, a diagnostic that names it, or the end of the run. -/
theorem Ends.outcome_cases {outcome : Outcome} (h : task.Ends passed source outcome) :
    (∃ layout, outcome = .bound (task.entry source layout) (task.target source)) ∨
      (∃ severity message, outcome = task.note source severity message) ∨
      (∃ error, outcome = .unsupported error) ∨ ∃ error, outcome = .stopped error := by
  have hrefused (attempt : String) (error : FileError) :
      (∃ severity message, task.refused source attempt error = task.note source severity message) ∨
        ∃ halt, task.refused source attempt error = .stopped halt := by
    rcases task.refused_cases source attempt error with ⟨message, hnoted⟩ | hstopped
    · exact .inl ⟨.error, message, hnoted⟩
    · exact .inr ⟨_, hstopped⟩
  cases h with
  | bound functions layout => exact .inl ⟨layout, rfl⟩
  | noLanguage => exact .inr (.inl ⟨_, _, rfl⟩)
  | noText => exact .inr (.inl ⟨_, _, rfl⟩)
  | notParsed => exact .inr (.inl ⟨_, _, rfl⟩)
  | empty => exact .inr (.inl ⟨_, _, rfl⟩)
  | unsupported functions error => exact .inr (.inr (.inl ⟨error, rfl⟩))
  | notRendered session functions fault => exact .inr (.inr (.inr ⟨_, rfl⟩))
  | notEncoded session functions layout => exact .inr (.inr (.inr ⟨_, rfl⟩))
  | notMade session error => exact .inr ((hrefused _ error).imp_right .inr)
  | notRead session error => exact .inr ((hrefused _ error).imp_right .inr)
  | notWritten session functions layout error => exact .inr ((hrefused _ error).imp_right .inr)

/-- Only where the platform has no bindings does a module say so. -/
theorem Ends.platform {error : Platform.Unsupported} (h : task.Ends passed source (.unsupported error)) :
    Platform.resolve task.plan.platform = .error error := by
  generalize houtcome : Outcome.unsupported error = outcome at h
  cases h with
  | unsupported functions other hmade hfunctions hplatform =>
    obtain rfl := Outcome.unsupported.inj houtcome
    exact hplatform
  | notMade => exact absurd houtcome.symm (task.refused_ne_unsupported source _ _ error)
  | notRead => exact absurd houtcome.symm (task.refused_ne_unsupported source _ _ error)
  | notWritten => exact absurd houtcome.symm (task.refused_ne_unsupported source _ _ error)
  | noLanguage => exact absurd houtcome nofun
  | noText => exact absurd houtcome nofun
  | notParsed => exact absurd houtcome nofun
  | empty => exact absurd houtcome nofun
  | notRendered => exact absurd houtcome nofun
  | notEncoded => exact absurd houtcome nofun
  | bound => exact absurd houtcome nofun

/-! ### The report on the modules -/

/-- A report on outcomes tells what all modules bring, unless one of them ends the run; then it tells what those
before it bring, and that the platform has no bindings, or there is none. -/
theorem reportedAll_accounted {steps : List (SourceModule × Outcome)}
    (hends : ∀ step ∈ steps, task.Ends passed step.1 step.2) (start : Report) :
    ∃ modules entries written diagnostics, task.Accounted passed modules entries written diagnostics ∧
      ((modules = steps.map Prod.fst ∧
          task.reportedAll start steps = .ok (start.extended entries written diagnostics)) ∨
        (∃ source error, modules ++ [source] <+: steps.map Prod.fst ∧
          task.Ends passed source (.unsupported error) ∧
          task.reportedAll start steps = .error (.aborted { start.extended entries written
            (diagnostics ++ [⟨.error, displayed source.path task.config.root, error.message⟩]) with
            aborted := true })) ∨
        ∃ source error, modules ++ [source] <+: steps.map Prod.fst ∧
          task.Ends passed source (.stopped error) ∧
          task.reportedAll start steps = .error (.stopped error)) := by
  induction steps generalizing start with
  | nil =>
    refine ⟨[], [], [], [], .nil, .inl ⟨rfl, ?_⟩⟩
    simp [Report.extended]
  | cons step steps ih =>
    obtain ⟨source, outcome⟩ := step
    have hfirst : task.Ends passed source outcome := hends _ List.mem_cons_self
    have hrest := ih fun step hstep => hends step (List.mem_cons_of_mem _ hstep)
    have hprefix : [source] <+: source :: steps.map Prod.fst := ⟨_, rfl⟩
    simp only [List.map_cons]
    rcases hfirst.outcome_cases with ⟨layout, rfl⟩ | ⟨severity, message, rfl⟩ | ⟨error, rfl⟩ | ⟨error, rfl⟩
    · have hnext (report : Report) : task.reportedAll report
          ((source, .bound (task.entry source layout) (task.target source)) :: steps) =
          task.reportedAll (report.extended [task.entry source layout] [task.target source] []) steps := by
        simp [Report.extended]
      obtain ⟨modules, entries, written, diagnostics, haccounted, hcases⟩ :=
        hrest (start.extended [task.entry source layout] [task.target source] [])
      refine ⟨source :: modules, task.entry source layout :: entries, task.target source :: written,
        diagnostics, .bound layout hfirst haccounted, ?_⟩
      simp only [hnext, Report.extended, List.append_assoc, List.nil_append, List.cons_append,
        List.prefix_cons_inj, List.cons.injEq, true_and] at hcases ⊢
      exact hcases
    · have hnext (report : Report) : task.reportedAll report
          ((source, task.note source severity message) :: steps) =
          task.reportedAll (report.extended [] [] [⟨severity, displayed source.path task.config.root, message⟩])
            steps := by
        simp [note, Report.extended]
      obtain ⟨modules, entries, written, diagnostics, haccounted, hcases⟩ :=
        hrest (start.extended [] [] [⟨severity, displayed source.path task.config.root, message⟩])
      refine ⟨source :: modules, entries, written,
        ⟨severity, displayed source.path task.config.root, message⟩ :: diagnostics,
        .noted severity message hfirst haccounted, ?_⟩
      simp only [hnext, Report.extended, List.append_assoc, List.nil_append, List.cons_append,
        List.prefix_cons_inj, List.cons.injEq, true_and] at hcases ⊢
      exact hcases
    · refine ⟨[], [], [], [], .nil, .inr (.inl ⟨source, error, hprefix, hfirst, ?_⟩)⟩
      simp [Report.extended]
    · exact ⟨[], [], [], [], .nil, .inr (.inr ⟨source, error, hprefix, hfirst, reportedAll_stopped ..⟩)⟩

/-- The work on the modules accounts for all of them, or for those before the one that ends the run. -/
theorem work_accounted (task : Task) (workers : Int) (events : List Event) (sources : List SourceModule)
    (session : Session) (start : Report) :
    ∃ modules entries written diagnostics,
      task.Accounted (task.Passes workers events sources session start) modules entries written diagnostics ∧
      ((modules = sources ∧ (task.work workers events sources session start).2 =
          .ok (start.extended entries written diagnostics)) ∨
        (∃ source error, modules ++ [source] <+: sources ∧
          task.Ends (task.Passes workers events sources session start) source (.unsupported error) ∧
          (task.work workers events sources session start).2 =
            .error (.aborted { start.extended entries written
              (diagnostics ++ [⟨.error, displayed source.path task.config.root, error.message⟩]) with
              aborted := true })) ∨
        ∃ source error, modules ++ [source] <+: sources ∧
          task.Ends (task.Passes workers events sources session start) source (.stopped error) ∧
          (task.work workers events sources session start).2 = .error (.stopped error)) := by
  obtain ⟨steps, hwork, hprefix, hends, hall⟩ := task.work_ends workers events sources session start
  obtain ⟨modules, entries, written, diagnostics, haccounted, hcases⟩ := reportedAll_accounted hends start
  refine ⟨modules, entries, written, diagnostics, haccounted, ?_⟩
  rw [hwork]
  rcases hcases with ⟨rfl, hok⟩ | ⟨source, error, hbefore, hsource, haborted⟩ |
    ⟨source, error, hbefore, hsource, hstopped⟩
  · exact .inl ⟨hall ⟨_, hok⟩, hok⟩
  · exact .inr (.inl ⟨source, error, hbefore.trans hprefix, hsource, haborted⟩)
  · exact .inr (.inr ⟨source, error, hbefore.trans hprefix, hsource, hstopped⟩)

end Task

/-! ### The names of the modules -/

/-- The modules of a scan lie below the library root by their spelling, in one directory. -/
theorem exists_relativeTo {disk : Disk} {selection : Selection} {root : Path} {sourceDirectory : String}
    (h : scan disk selection root sourceDirectory = .ok sources) :
    ∃ back, (∀ part ∈ back, Path.isPlainPart part = true) ∧ ∀ location,
      moduleAt ((root.absolute disk.current).joinText sourceDirectory) location ∈ sources →
        (moduleAt ((root.absolute disk.current).joinText sourceDirectory) location).path.relativeTo
          (root.absolute disk.current) = .ok ⟨.current, back ++ location⟩ := by
  obtain ⟨-, ⟨-, rfl⟩ | ⟨tree, relative, -, hrelative, -⟩⟩ := scan_eq_ok_cases h
  · exact ⟨[], fun _ hpart => absurd hpart List.not_mem_nil, fun _ hmem => absurd hmem List.not_mem_nil⟩
  generalize root.absolute disk.current = root at hrelative ⊢
  refine ⟨(root.joinText sourceDirectory).parts.drop root.parts.length, fun part hpart => ?_, fun location _ => ?_⟩
  · -- what is left of the parts is spelled by the name of the source directory
    have hspelled : part ∈ (Path.ofText sourceDirectory).parts := by
      rw [Path.joinText, Path.join] at hpart
      split at hpart
      · rwa [List.drop_left] at hpart
      · exact List.drop_subset _ _ hpart
    exact Path.isPlainPart_of_mem_ofText hspelled
  · rw [Path.relativeTo] at hrelative
    split at hrelative
    · rename_i hbelow
      rw [Bool.and_eq_true, decide_eq_true_eq, List.isPrefixOf_iff_prefix] at hbelow
      have hlong := hbelow.2.trans (List.prefix_append _ location)
      rw [moduleAt, Path.join_parts_of_current, Path.relativeTo, if_pos,
        List.drop_append_of_le_length hbelow.2.length_le]
      rw [Bool.and_eq_true, decide_eq_true_eq, List.isPrefixOf_iff_prefix]
      exact ⟨hbelow.1, hlong⟩
    · exact absurd hrelative (by simp)

/-- No module is found twice. -/
theorem scan_nodup {disk : Disk} {selection : Selection} {root : Path} {sourceDirectory : String}
    (hproper : disk.tree.isProper = true) (h : scan disk selection root sourceDirectory = .ok sources) :
    sources.Nodup := by
  obtain ⟨-, ⟨-, rfl⟩ | ⟨tree, relative, hfound, -, rfl⟩⟩ := scan_eq_ok_cases h
  · exact List.nodup_nil
  · have htree := (Tree.isEntryName_of_find? hproper (Disk.find?_directory hfound)).2 tree rfl
    exact nodup_modulesIn selection _ relative (Tree.isDistinct_of_isProper htree)

/-- A module is named by the way to it from the library root, and no other module has that name. -/
theorem Begins.names (h : Begins session request config sources)
    (hproper : session.disk.tree.isProper = true) (hcurrent : session.disk.HasCurrent) :
    (∀ source ∈ sources, ∃ relative, source.path.relativeTo config.root = .ok relative ∧
        displayed source.path config.root = relative.toText) ∧
      (sources.map fun source => displayed source.path config.root).Nodup := by
  have hnamed := Tree.isNamed_of_isProper hproper
  obtain ⟨-, -, hlibrary⟩ := h.settingsFile_eq hnamed hcurrent
  have hscan := h.scan
  rw [← hlibrary] at hscan
  have habsolute : config.root.absolute session.disk.current = config.root := by
    rw [hlibrary]
    exact Path.absolute_of_root rfl (Path.notMem_absolute (notMem_current hnamed hcurrent) _) _
  obtain ⟨back, hback, hrelative⟩ := exists_relativeTo hscan
  have hplace : ∀ source ∈ sources, ∃ location, source =
      moduleAt ((config.root.absolute session.disk.current).joinText config.sourceDirectory) location ∧
        (∀ part ∈ back ++ location, Path.isPlainPart part = true) ∧
        source.path.relativeTo config.root = .ok ⟨.current, back ++ location⟩ := by
    intro source hsource
    obtain ⟨location, rfl, -, hnames, -⟩ := exists_moduleAt hproper hscan hsource
    have hbelow := hrelative location hsource
    rw [habsolute] at hbelow ⊢
    refine ⟨location, rfl, fun part hpart => ?_, hbelow⟩
    rcases List.mem_append.1 hpart with hfront | hlast
    · exact hback part hfront
    · exact isPlainPart_of_isEntryName (hnames part hlast)
  constructor
  · intro source hsource
    obtain ⟨location, -, -, hbelow⟩ := hplace source hsource
    exact ⟨_, hbelow, by rw [displayed, hbelow]⟩
  · refine (List.nodup_map_iff_inj_on (scan_nodup hproper hscan)).2 fun source hsource other hother hsame => ?_
    obtain ⟨location, hmodule, hplain, hbelow⟩ := hplace source hsource
    obtain ⟨place, hmoduleOther, hplainOther, hbelowOther⟩ := hplace other hother
    rw [displayed, displayed, hbelow, hbelowOther] at hsame
    have hparts := congrArg Path.parts (Path.eq_of_toText_eq hplain hplainOther hsame)
    rw [hmodule, hmoduleOther, List.append_cancel_left hparts]

/-! ### The run -/

/-- What the work on the modules of a run comes to. -/
def worked (session : Session) (request : Request) (circumstances : Circumstances) (config : Config)
    (sources : List SourceModule) : Session × Except Halt Report :=
  let task := taskFor request circumstances config
  task.work (request.workers.getD config.workers) circumstances.events sources (begun session request sources)
    task.firstReport

theorem worked_eq (session : Session) (request : Request) (circumstances : Circumstances) (config : Config)
    (sources : List SourceModule) :
    worked session request circumstances config sources =
      (taskFor request circumstances config).work (request.workers.getD config.workers)
        circumstances.events sources (begun session request sources)
        (taskFor request circumstances config).firstReport :=
  rfl

/-- The sessions that the work on the modules of a run passes through. -/
def PassedBy (session : Session) (request : Request) (circumstances : Circumstances) (config : Config)
    (sources : List SourceModule) : Session → Prop :=
  let task := taskFor request circumstances config
  task.Passes (request.workers.getD config.workers) circumstances.events sources (begun session request sources)
    task.firstReport

theorem Begins.generate_snd (h : Begins session request config sources) (circumstances : Circumstances) :
    (generate session request circumstances).2 =
      match (worked session request circumstances config sources).2 with
      | .error (.stopped error) => .error error
      | .error (.aborted report) => .ok report
      | .ok report => indexReport report (indexUpdate circumstances.faults.index
          (worked session request circumstances config sources).1.disk report).2 := by
  rw [h.generate_eq, generateModules_eq, ← worked_eq]
  rcases worked session request circumstances config sources with ⟨session, (aborted | error) | made⟩
  · rfl
  · rfl
  · exact conclude_snd _ _ _

/-- Whatever fails in a run, and however its modules are worked on, a report of it accounts for each module once,
by the entry and the path of its binding or by a diagnostic that names it, in the order of the modules. An index
that could not be updated adds one diagnostic, the last; and where the platform has no bindings, the last one is
of the first module that finds it out, and no later one is told of. -/
theorem generate_accounted (hproper : session.disk.tree.isProper = true) (hcurrent : session.disk.HasCurrent)
    (hbegins : Begins session request config sources)
    (hrun : generate session request circumstances = (after, .ok report)) :
    let task := taskFor request circumstances config
    let passed := PassedBy session request circumstances config sources
    let work := worked session request circumstances config sources
    ((∀ source ∈ sources, ∃ relative, source.path.relativeTo config.root = .ok relative ∧
        displayed source.path config.root = relative.toText) ∧
      (sources.map fun source => displayed source.path config.root).Nodup) ∧
    report.entries.length = report.written.length ∧
    ((report.aborted = false ∧
        (∃ made update, work.2 = .ok made ∧
          (indexUpdate circumstances.faults.index work.1.disk made).2 = .ok update) ∧
        task.Accounted passed sources report.entries report.written report.diagnostics ∧
        report.entries.length + report.diagnostics.length = sources.length) ∨
      (∃ error diagnostics,
        (∃ made, work.2 = .ok made ∧
          (indexUpdate circumstances.faults.index work.1.disk made).2 = .error (.file error)) ∧
        task.Accounted passed sources report.entries report.written diagnostics ∧
        report.entries.length + diagnostics.length = sources.length ∧
        report.diagnostics = diagnostics ++
          [⟨.error, config.indexPath.toText, s!"cannot update index: {error.message}"⟩] ∧
        report.status = .failed ∧ report.indexChanged = false) ∨
      ∃ before source error diagnostics,
        (∃ halted, work.2 = .error (.aborted halted)) ∧ before ++ [source] <+: sources ∧
        task.Ends passed source (.unsupported error) ∧
        task.Accounted passed before report.entries report.written diagnostics ∧
        report.diagnostics = diagnostics ++
          [⟨.error, displayed source.path config.root, error.message⟩] ∧
        report.status = .failed ∧ report.indexChanged = false) := by
  intro task passed work
  refine ⟨hbegins.names hproper hcurrent, ?_⟩
  have hreport := hbegins.generate_snd circumstances
  rw [hrun] at hreport
  obtain ⟨modules, entries, written, diagnostics, haccounted, ⟨rfl, hwork⟩ | ⟨source, error, hbefore, hends, hwork⟩ |
    ⟨source, error, -, -, hwork⟩⟩ := task.work_accounted (request.workers.getD config.workers) circumstances.events
      sources (begun session request sources) task.firstReport
  · have hwork : work.2 = .ok (task.firstReport.extended entries written diagnostics) := hwork
    have hlengths := haccounted.length_modules
    rw [show (worked session request circumstances config modules).2 = _ from hwork] at hreport
    rcases indexReport_cases hreport.symm with ⟨update, hupdate, rfl⟩ | ⟨error, hupdate, rfl⟩
    · exact ⟨haccounted.length_entries,
        .inl ⟨rfl, ⟨_, update, hwork, hupdate⟩, haccounted, hlengths⟩⟩
    · exact ⟨haccounted.length_entries,
        .inr (.inl ⟨error, diagnostics, ⟨_, hwork, hupdate⟩, haccounted, hlengths, rfl, rfl, rfl⟩)⟩
  · rw [show (worked session request circumstances config sources).2 = _ from hwork] at hreport
    obtain rfl := Except.ok.inj hreport
    exact ⟨haccounted.length_entries,
      .inr (.inr ⟨modules, source, error, diagnostics, ⟨_, hwork⟩, hbefore, hends, haccounted, rfl, rfl, rfl⟩)⟩
  · rw [show (worked session request circumstances config sources).2 = _ from hwork] at hreport
    exact absurd hreport (by simp)

/-- A run on a module that gets its binding and one that is no text. -/
theorem generate_accounted_library :
    ∃ after report, generate Sample.library Sample.request {} = (after, .ok report) ∧
      report.aborted = false ∧ report.entries.length + report.diagnostics.length = 2 := by
  have hproper : Sample.library.disk.tree.isProper = true := by decide +kernel
  have hresult : (generate Sample.library Sample.request {}).2.map Report.aborted = .ok false := by
    rw [Sample.begins_library.generate_eq]
    decide +kernel
  rcases hrun : generate Sample.library Sample.request {} with ⟨after, error | report⟩
  · rw [hrun] at hresult
    exact absurd hresult (by simp [Except.map])
  · rw [hrun] at hresult
    have hdone : report.aborted = false := Except.ok.inj hresult
    have hstatus : report.status ≠ .failed := Report.status_ne_failed hdone
    obtain ⟨-, -, ⟨-, -, -, hlengths⟩ | ⟨error, diagnostics, -, -, -, -, hfailed, -⟩ |
      ⟨before, source, error, diagnostics, -, -, -, -, -, hfailed, -⟩⟩ :=
      generate_accounted hproper (hasCurrent_of_top rfl) Sample.begins_library hrun
    · exact ⟨after, report, rfl, hdone, hlengths⟩
    · exact absurd hfailed hstatus
    · exact absurd hfailed hstatus

end Generation

end FfiBindings
