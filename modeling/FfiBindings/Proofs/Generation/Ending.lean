import FfiBindings.Proofs.Generation.Accounting
import FfiBindings.Proofs.Generation.Quiet
import FfiBindings.Proofs.Index.Failure

/-!
How a run ends. Where the template is fine, a module ends a run without a report only by a path of its binding
that no disk can have, or by a text without an encoding (`Ends.stopped`). So with the stock template a run that
begins comes to a report, whatever fails, unless an index is no text or the settings name such a path or bring
halves of characters into the bindings (`generate_ends`); then it stops, and the bindings that are written by
then stay (`stops_without_report`).
-/

set_option autoImplicit false
set_option relaxedAutoImplicit false

namespace FfiBindings.Generation

open Disk

variable {session : Session} {request : Request} {circumstances : Circumstances} {config : Config}
  {sources : List SourceModule} {source : SourceModule} {disk : Disk}

namespace Task

variable {task : Task} {passed : Session → Prop}

/-! ### What stops a run -/

theorem makeDirectory_eq_nullInPath (hmedium : task.MediumFails source)
    (h : (task.makeDirectory source disk).2 = some .nullInPath) : hasNull (task.target source) = true := by
  by_contra hnull
  rw [Bool.not_eq_true] at hnull
  have htried : hasNull (task.tried source) = false := by
    rw [hasNull, List.any_eq_false] at hnull ⊢
    exact fun part hpart => hnull part ((task.tried_prefix source).subset hpart)
  rw [makeDirectory_eq] at h
  rcases Option.or_eq_some_iff.1 h with hmade | ⟨-, hfault⟩
  · exact makeDirectories_ne_nullInPath htried hmade
  · obtain ⟨⟨error, untried⟩, hdirectory, rfl⟩ := Option.map_eq_some_iff.1 hfault
    exact (hmedium.directory _ untried hdirectory).1 rfl

theorem writeContent_eq_nullInPath (hmedium : task.MediumFails source) {layout : Layout}
    (h : (task.writeContent source layout disk).2 = some .nullInPath) : hasNull (task.target source) = true := by
  by_contra hnull
  rw [Bool.not_eq_true] at hnull
  have hfault : (task.writeFault source layout).map Prod.fst ≠ some .nullInPath := by
    intro hfault
    obtain ⟨⟨error, left⟩, hwrite, rfl⟩ := Option.map_eq_some_iff.1 hfault
    exact hmedium.write _ left (Option.filter_eq_some_iff.1 hwrite).1 rfl
  rw [writeContent_eq] at h
  split at h
  · exact hfault h
  · split at h
    · exact hfault h
    · rename_i error hwrite
      rcases Option.or_eq_some_iff.1 h with hfailed | ⟨-, herror⟩
      · exact hfault hfailed
      · obtain rfl := Option.some.inj herror
        exact write_ne_nullInPath hnull _ hwrite

/-- Where the template has a text for its functions, a module stops a run only by the path of its binding, or by
halves of characters in the text. -/
theorem Ends.stopped
    (hrenders : ∀ session, passed session → ∀ functions fault,
      task.layOut source session.disk functions ≠ .error (.stopped (.template fault)))
    (hmedium : task.MediumFails source) (hnull : hasNull source.path = false) {error : RunError}
    (h : task.Ends passed source (.stopped error)) :
    task.dryRun = false ∧ ((error = .file .nullInPath ∧ hasNull (task.target source) = true) ∨
      (error = .file Layout.noEncoding ∧
        ∃ functions layout, task.Rendered passed source functions layout ∧ layout.isHalved = true)) := by
  generalize houtcome : Outcome.stopped error = outcome at h
  have hrefused {attempt : String} {failure : FileError}
      (hstopped : Outcome.stopped error = task.refused source attempt failure) :
      error = .file .nullInPath ∧ failure = .nullInPath := by
    cases failure with
    | nullInPath => exact ⟨Outcome.stopped.inj hstopped, rfl⟩
    | refused refusal path => exact absurd hstopped nofun
    | failed message => exact absurd hstopped nofun
  cases h with
  | notMade session failure hpassed hwrites hmade =>
    obtain ⟨rfl, rfl⟩ := hrefused houtcome
    exact ⟨hwrites, .inl ⟨rfl, makeDirectory_eq_nullInPath hmedium hmade⟩⟩
  | notRead session failure hpassed hmade hread =>
    obtain ⟨rfl, rfl⟩ := hrefused houtcome
    exact absurd hread (readSource_ne_nullInPath hmedium hnull _)
  | notWritten session functions layout failure hpassed hwrites hmade hfunctions hlayout hwritten =>
    obtain ⟨rfl, rfl⟩ := hrefused houtcome
    exact ⟨hwrites, .inl ⟨rfl, writeContent_eq_nullInPath hmedium hwritten⟩⟩
  | notEncoded session functions layout hpassed hwrites hmade hfunctions hlayout hwritten hhalved =>
    exact ⟨hwrites, .inr ⟨Outcome.stopped.inj houtcome, functions, layout, hlayout, hhalved⟩⟩
  | notRendered session functions fault hpassed hmade hfunctions hlayout =>
    exact absurd hlayout (hrenders session hpassed functions fault)
  | noLanguage => exact absurd houtcome nofun
  | noText => exact absurd houtcome nofun
  | notParsed => exact absurd houtcome nofun
  | empty => exact absurd houtcome nofun
  | unsupported => exact absurd houtcome nofun
  | bound => exact absurd houtcome nofun

end Task

/-! ### The run -/

/-- A module stops a run only by the output directory of the settings, or by halves of characters. -/
theorem Begins.stopped (hproper : session.disk.tree.isProper = true) (hbegins : Begins session request config sources)
    (hsource : source ∈ sources)
    (hrenders : ∀ reached, PassedBy session request circumstances config sources reached →
      ∀ functions fault, (taskFor request circumstances config).layOut source reached.disk functions ≠
        .error (.stopped (.template fault)))
    (hmedium : (taskFor request circumstances config).MediumFails source) {error : RunError}
    (h : (taskFor request circumstances config).Ends
      (PassedBy session request circumstances config sources) source (.stopped error)) :
    request.dryRun = false ∧ ((error = .file .nullInPath ∧ hasNull config.outputRoot = true) ∨
      (error = .file Layout.noEncoding ∧ ∃ functions layout, (taskFor request circumstances config).Rendered
        (PassedBy session request circumstances config sources) source functions layout ∧
          layout.isHalved = true)) := by
  have hnamed := Tree.isNamed_of_isProper hproper
  obtain ⟨hwrites, ⟨rfl, hnull⟩ | hhalved⟩ :=
    Task.Ends.stopped hrenders hmedium (scan_path_noNull hnamed hbegins.scan hsource) h
  · rw [Task.target, (hasNull_bindingPath hnamed hbegins.scan hsource _).2] at hnull
    exact ⟨hwrites, .inl ⟨rfl, hnull⟩⟩
  · exact ⟨hwrites, .inr hhalved⟩

/-- Whatever bytes the files hold and whatever fails on the medium, a run that begins comes to a report, with the
stock template. A module that cannot be made room for, read, decoded, parsed or written brings one error to it,
and an index that cannot be read or written is named by the last one; the run has failed then. Only where the
index is no text is there no report, or where the settings name a path that no disk can have, or where they bring
halves of characters into the bindings. -/
theorem generate_ends (hproper : session.disk.tree.isProper = true)
    (hbegins : Begins session request config sources)
    (htemplate : ∀ reached, PassedBy session request circumstances config sources reached →
      (taskFor request circumstances config).template reached.disk = .ok Template.stock)
    (hmedium : ∀ source ∈ sources, (taskFor request circumstances config).MediumFails source)
    (hindex : Index.MediumFails circumstances.faults.index) :
    let task := taskFor request circumstances config
    let passed := PassedBy session request circumstances config sources
    let work := worked session request circumstances config sources
    (∃ report modules diagnostics, (generate session request circumstances).2 = .ok report ∧
      task.Accounted passed modules report.entries report.written diagnostics ∧
      ((modules = sources ∧ report.diagnostics = diagnostics ∧ report.status ≠ .failed ∧
          ∃ made update, work.2 = .ok made ∧
            (indexUpdate circumstances.faults.index work.1.disk made).2 = .ok update) ∨
        (modules = sources ∧ ∃ made error, work.2 = .ok made ∧
          (indexUpdate circumstances.faults.index work.1.disk made).2 = .error (.file error) ∧
          report.diagnostics = diagnostics ++
            [⟨.error, config.indexPath.toText, s!"cannot update index: {error.message}"⟩] ∧
          report.status = .failed) ∨
        ∃ source error, modules ++ [source] <+: sources ∧
          Platform.resolve task.plan.platform = .error error ∧
          report.diagnostics = diagnostics ++
            [⟨.error, displayed source.path config.root, error.message⟩] ∧
          report.status = .failed)) ∨
    (∃ made bytes fault, work.2 = .ok made ∧ work.1.disk.read config.indexPath = .ok bytes ∧
      Text.Utf8.decode bytes = .error fault ∧
      (generate session request circumstances).2 = .error (.index fault)) ∨
    ((hasNull config.indexPath = true ∨ (request.dryRun = false ∧ hasNull config.outputRoot = true)) ∧
      (generate session request circumstances).2 = .error (.file .nullInPath)) ∨
    (request.dryRun = false ∧ config.binDirectoryHalved = true ∧
      (generate session request circumstances).2 = .error (.file Layout.noEncoding)) := by
  intro task passed work
  have hresult := hbegins.generate_snd circumstances
  obtain ⟨modules, entries, written, diagnostics, haccounted, ⟨rfl, hwork⟩ | ⟨source, error, hbefore, hends, hwork⟩ |
    ⟨source, error, hbefore, hends, hwork⟩⟩ := task.work_accounted (request.workers.getD config.workers)
      circumstances.events sources (begun session request sources) task.firstReport
  · have hwork : work.2 = .ok (task.firstReport.extended entries written diagnostics) := hwork
    rw [show (worked session request circumstances config modules).2 = _ from hwork] at hresult
    rcases hupdate : (indexUpdate circumstances.faults.index work.1.disk
        (task.firstReport.extended entries written diagnostics)).2 with (error | fault) | update
    · by_cases hnull : error = .nullInPath
      · subst hnull
        refine .inr (.inr (.inl ⟨.inl (Index.update_eq_nullInPath hindex hupdate), hresult.trans ?_⟩))
        exact congrArg (indexReport _) hupdate
      · have hnoted := indexReport_error (task.firstReport.extended entries written diagnostics) hnull
        refine .inl ⟨_, modules, diagnostics, hresult.trans ((congrArg (indexReport _) hupdate).trans hnoted),
          haccounted, .inr (.inl ⟨rfl, _, error, hwork, hupdate, rfl, rfl⟩)⟩
    · obtain ⟨bytes, hread, hdecode⟩ := Index.update_eq_encoding hupdate
      refine .inr (.inl ⟨_, bytes, fault, hwork, hread, hdecode, hresult.trans ?_⟩)
      exact congrArg (indexReport _) hupdate
    · refine .inl ⟨_, modules, diagnostics, hresult.trans (congrArg (indexReport _) hupdate), haccounted,
        .inl ⟨rfl, rfl, Report.status_ne_failed rfl, _, update, hwork, hupdate⟩⟩
  · rw [show (worked session request circumstances config sources).2 = _ from hwork] at hresult
    exact .inl ⟨_, modules, diagnostics, hresult, haccounted,
      .inr (.inr ⟨source, error, hbefore, hends.platform, rfl, rfl⟩)⟩
  · rw [show (worked session request circumstances config sources).2 = _ from hwork] at hresult
    have hmem : source ∈ sources := hbefore.subset (List.mem_append_right _ List.mem_cons_self)
    have hrenders (reached : Session) (hreached : passed reached) :=
      task.layOut_stock (htemplate reached hreached) source
    obtain ⟨hwrites, ⟨rfl, hnull⟩ | ⟨rfl, functions, layout, ⟨reached, -, hlayout⟩, hhalved⟩⟩ :=
      hbegins.stopped hproper hmem hrenders (hmedium source hmem) hends
    · exact .inr (.inr (.inl ⟨.inr ⟨hwrites, hnull⟩, hresult⟩))
    · exact .inr (.inr (.inr ⟨hwrites, Task.layOut_isHalved hlayout hhalved, hresult⟩))

namespace Sample

def indexNoTextTree : Tree :=
  .file "index.ts" ⟨#[0xff]⟩ 0o644 (.directory "rs" (.file "a.rs" sourceText.toUTF8 0o644 .empty) .empty)

/-- A library of a module that exports a function, and an index that is no text. -/
def indexNoText : Session where
  disk := { tree := indexNoTextTree }

/-- A medium that is full when the text of a binding or of the index is written. -/
def full : Circumstances where
  faults :=
    { write := fun _ => some (.failed "No space left on device", none)
      index := fun step => if step = .content then some (.failed "No space left on device") else none }

end Sample

/-- A run on a full medium, which comes to a report on both modules and on the index. -/
theorem generate_ends_full :
    ∃ report, (generate Sample.library Sample.request Sample.full).2 = .ok report ∧ report.status = .failed ∧
      report.entries.length + report.diagnostics.length = 3 := by
  have hfailed : (generate Sample.library Sample.request Sample.full).2.map Report.status = .ok .failed := by
    rw [Sample.begins_library.generate_eq]
    decide +kernel
  have hnull : hasNull Sample.settings.indexPath = false ∧ hasNull Sample.settings.outputRoot = false := by
    decide +kernel
  have hmedium : ∀ source ∈ [Sample.exporting, Sample.noText],
      (taskFor Sample.request Sample.full Sample.settings).MediumFails source := by
    refine fun source _ => ⟨nofun, nofun, fun error left hwrite => ?_⟩
    obtain rfl : FileError.failed "No space left on device" = error :=
      congrArg Prod.fst (Option.some.inj hwrite)
    simp
  have hindex : Index.MediumFails Sample.full.faults.index := by
    intro step
    cases step <;> simp [Sample.full]
  rcases generate_ends (by decide +kernel) Sample.begins_library (fun _ _ => rfl) hmedium hindex with
    ⟨report, modules, diagnostics, hrun, haccounted, ⟨-, -, hdone, -⟩ |
      ⟨rfl, made, error, -, -, hlast, hstatus⟩ | ⟨source, error, -, hplatform, -⟩⟩ |
    ⟨made, bytes, fault, -, -, -, hstopped⟩ | ⟨hpath, -⟩ | ⟨-, hhalved, -⟩
  · rw [hrun] at hfailed
    exact absurd (Except.ok.inj hfailed) hdone
  · refine ⟨report, hrun, hstatus, ?_⟩
    rw [hlast, List.length_append, ← Nat.add_assoc, haccounted.length_modules]
    rfl
  · exact absurd hplatform nofun
  · rw [hstopped] at hfailed
    exact absurd hfailed (by simp [Except.map])
  · rw [hnull.1, hnull.2] at hpath
    exact absurd hpath (by simp)
  · exact absurd hhalved (by simp [Sample.settings])

/-- Runs that stop without a report. Where the index is no text, the binding of the module is written before; where the
settings name half a character, there is an empty file in the place of the first binding. -/
theorem stops_without_report :
    (Begins Sample.indexNoText Sample.request Sample.settings [Sample.exporting] ∧
      (generate Sample.indexNoText Sample.request {}).1.disk.contains
        (Sample.exporting.bindingPath Sample.settings.outputRoot) = true ∧
      (generate Sample.indexNoText Sample.request {}).2 = .error (.index ⟨.startByte, 0, [0xff]⟩)) ∧
    (Begins Sample.halved Sample.request Sample.halvedSettings [Sample.exporting, Sample.second] ∧
      (generate Sample.halved Sample.request {}).1.disk.read
        (Sample.exporting.bindingPath Sample.halvedSettings.outputRoot) = .ok .empty ∧
      (generate Sample.halved Sample.request {}).2 = .error (.file Layout.noEncoding)) := by
  have hnoText : Begins Sample.indexNoText Sample.request Sample.settings [Sample.exporting] :=
    .of_met (by decide +kernel)
  have hhalved : Begins Sample.halved Sample.request Sample.halvedSettings [Sample.exporting, Sample.second] :=
    .of_met (by decide +kernel)
  refine ⟨⟨hnoText, ?_⟩, hhalved, ?_⟩
  · rw [hnoText.generate_eq]
    decide +kernel
  · rw [hhalved.generate_eq]
    decide +kernel

end FfiBindings.Generation
