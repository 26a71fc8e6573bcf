import FfiBindings.Proofs.Generation.Reported
import FfiBindings.Proofs.Generation.Run
import FfiBindings.Proofs.Index.Alike

/-!
The end of a run, told by the update of the index alone (`conclude_snd`): after it only the journal goes on
(`conclude_logged`). On disks that look alike but for the log file a run ends alike (`conclude_alike`).
-/

set_option autoImplicit false
set_option relaxedAutoImplicit false

namespace FfiBindings.Generation

open Disk

variable {session other after : Session} {spared : List Location} {report final : Report} {faults : Index.Faults}

/-- The report that the work on the modules begins with. -/
def Task.firstReport (task : Task) : Report where
  root := task.config.root
  indexPath := task.config.indexPath
  dryRun := task.dryRun

/-- The end of a run: the index is updated, and the journal is told how the run went. -/
def conclude (faults : Index.Faults) (session : Session) (report : Report) :
    Session × Except RunError Report :=
  match mergeIndex faults session report with
  | (session, .error error) => (session, .error error)
  | (session, .ok report) => (session.note (endMessage report), .ok report)

theorem generateModules_eq (task : Task) (workers : Int) (events : List Event)
    (sources : List SourceModule) (session : Session) :
    generateModules task workers events sources session =
      match task.work workers events sources session task.firstReport with
      | (session, .error (.stopped error)) => (session, .error error)
      | (session, .error (.aborted report)) => (session, .ok report)
      | (session, .ok report) => conclude task.faults.index session report := rfl

/-- A run whose report is not aborted has not halted before the end. -/
theorem generateModules_ok {task : Task} {workers : Int} {events : List Event} {sources : List SourceModule}
    (hrun : (generateModules task workers events sources session).2 = .ok final) (hdone : final.aborted = false) :
    ∃ worked report, task.work workers events sources session task.firstReport = (worked, .ok report) ∧
      generateModules task workers events sources session = conclude task.faults.index worked report := by
  rw [generateModules_eq] at hrun ⊢
  rcases hresult : task.work workers events sources session task.firstReport with
    ⟨worked, (aborted | error) | report⟩
  · rw [hresult] at hrun
    obtain rfl : aborted = final := Except.ok.inj hrun
    obtain ⟨steps, hsteps⟩ := task.exists_reportedAll workers events sources session task.firstReport
    rw [Task.reportedAll_aborted (hsteps.symm.trans (congrArg Prod.snd hresult))] at hdone
    exact absurd hdone (by simp)
  · rw [hresult] at hrun
    exact absurd hrun (by simp)
  · exact ⟨worked, report, rfl, rfl⟩

/-- What a run comes to, by what the update of the index comes to. -/
def indexReport (report : Report) : Except Index.UpdateError Index.Update → Except RunError Report
  | .ok update => .ok { report with indexChanged := update.changed }
  | .error (.encoding fault) => .error (.index fault)
  | .error (.file .nullInPath) => .error (.file .nullInPath)
  | .error (.file error) =>
    .ok { report with
      diagnostics := report.diagnostics ++
        [⟨.error, report.indexPath.toText, s!"cannot update index: {error.message}"⟩]
      aborted := true }

/-- An error of the files aborts the run, but for a path that no disk can have. -/
theorem indexReport_error (report : Report) {error : FileError} (herror : error ≠ .nullInPath) :
    indexReport report (.error (.file error)) =
      .ok { report with
        diagnostics := report.diagnostics ++
          [⟨.error, report.indexPath.toText, s!"cannot update index: {error.message}"⟩]
        aborted := true } := by
  cases error with
  | nullInPath => exact absurd rfl herror
  | refused refusal path => rfl
  | failed message => rfl

/-- What the update of the index comes to for a report. -/
def indexUpdate (faults : Index.Faults) (disk : Disk) (report : Report) :
    Disk × Except Index.UpdateError Index.Update :=
  Index.update disk report.indexPath (report.entries.map IndexEntry.importPath) report.dryRun faults

theorem mergeIndex_snd (faults : Index.Faults) (session : Session) (report : Report) :
    (mergeIndex faults session report).2 =
      indexReport report (indexUpdate faults session.disk report).2 := by
  unfold indexUpdate
  rcases hupdate : Index.update session.disk report.indexPath
    (report.entries.map IndexEntry.importPath) report.dryRun faults with ⟨disk, (error | fault) | update⟩
  · cases error <;> simp only [mergeIndex, hupdate, indexReport]
  · simp only [mergeIndex, hupdate, indexReport]
  · simp only [mergeIndex, hupdate, indexReport]

/-- After the update of the index only the journal goes on, in the same log file or, when the index took the
place of that file, in none. -/
theorem mergeIndex_noted (faults : Index.Faults) (session : Session) (report : Report) :
    ∃ (noted : Session) (messages : List Message), noted.disk = (indexUpdate faults session.disk report).1 ∧
      (∀ location ∈ noted.logLocations, location ∈ session.logLocations) ∧
      (mergeIndex faults session report).1 = noted.noteAll messages := by
  unfold indexUpdate
  rcases hupdate : Index.update session.disk report.indexPath
    (report.entries.map IndexEntry.importPath) report.dryRun faults with ⟨disk, (error | fault) | update⟩
  · cases error with
    | nullInPath =>
      exact ⟨{ session with disk }, [], rfl, fun _ h => h, by simp only [mergeIndex, hupdate]; rfl⟩
    | refused refusal path =>
      exact ⟨{ session with disk }, [_], rfl, fun _ h => h, by simp only [mergeIndex, hupdate]; rfl⟩
    | failed message =>
      exact ⟨{ session with disk }, [_], rfl, fun _ h => h, by simp only [mergeIndex, hupdate]; rfl⟩
  · exact ⟨{ session with disk }, [], rfl, fun _ h => h, by simp only [mergeIndex, hupdate]; rfl⟩
  · refine ⟨withIndex report.indexPath update report.dryRun { session with disk },
      (indexMessage report.indexPath update report.dryRun).toList,
      withIndex_disk _ _ _ _, fun location hlog => ?_, by simp only [mergeIndex, hupdate]⟩
    have hbefore := mem_logLocations_of_withIndex hlog
    exact hbefore

/-! ### The end of a run -/

theorem conclude_snd (faults : Index.Faults) (session : Session) (report : Report) :
    (conclude faults session report).2 =
      indexReport report (indexUpdate faults session.disk report).2 := by
  rw [← mergeIndex_snd, conclude]
  rcases mergeIndex faults session report with ⟨merged, error | final⟩
  · rfl
  · rfl

/-- After the update of the index only the journal goes on, to the end of the run. -/
theorem conclude_noted (faults : Index.Faults) (session : Session) (report : Report) :
    ∃ (noted : Session) (messages : List Message), noted.disk = (indexUpdate faults session.disk report).1 ∧
      (∀ location ∈ noted.logLocations, location ∈ session.logLocations) ∧
      (conclude faults session report).1 = noted.noteAll messages := by
  obtain ⟨noted, messages, hdisk, hlog, hmerged⟩ := mergeIndex_noted faults session report
  rw [conclude]
  revert hmerged
  rcases mergeIndex faults session report with ⟨merged, error | final⟩
  · exact fun hmerged => ⟨noted, messages, hdisk, hlog, hmerged⟩
  · rintro rfl
    refine ⟨noted, messages ++ [endMessage final], hdisk, hlog, ?_⟩
    rw [Session.noteAll, Session.noteAll, List.foldl_append]
    rfl

theorem conclude_logged (faults : Index.Faults) (session : Session) (report : Report) :
    Session.OnlyLogged session.logLocations (indexUpdate faults session.disk report).1
      (conclude faults session report).1.disk := by
  obtain ⟨noted, messages, hdisk, hlog, hnoted⟩ := conclude_noted faults session report
  rw [hnoted, ← hdisk]
  exact (noted.noteAll_changes messages).mono hlog

/-- What the end of a run makes of a report: the index is changed or not, or the run is aborted. -/
theorem indexReport_cases {result : Except Index.UpdateError Index.Update}
    (h : indexReport report result = .ok final) :
    (∃ update, result = .ok update ∧ final = { report with indexChanged := update.changed }) ∨
      ∃ error, result = .error (.file error) ∧ final = { report with
        diagnostics := report.diagnostics ++
          [⟨.error, report.indexPath.toText, s!"cannot update index: {error.message}"⟩]
        aborted := true } := by
  rcases result with (error | fault) | update
  · cases error with
    | nullInPath => exact absurd h (by simp [indexReport])
    | refused refusal path => exact .inr ⟨_, rfl, (Except.ok.inj h).symm⟩
    | failed message => exact .inr ⟨_, rfl, (Except.ok.inj h).symm⟩
  · exact absurd h (by simp [indexReport])
  · exact .inl ⟨update, rfl, (Except.ok.inj h).symm⟩

/-- The end of a run adds nothing to what is bound. -/
theorem conclude_lists (h : (conclude faults session report).2 = .ok final) :
    final.entries = report.entries ∧ final.written = report.written := by
  rw [conclude_snd] at h
  rcases indexReport_cases h with ⟨update, -, rfl⟩ | ⟨error, -, rfl⟩
  · exact ⟨rfl, rfl⟩
  · exact ⟨rfl, rfl⟩

/-- A run that is not aborted at its end has updated the index. -/
theorem conclude_ok (h : (conclude faults session report).2 = .ok final) (hdone : final.aborted = false) :
    ∃ update, (indexUpdate faults session.disk report).2 = .ok update ∧
      final = { report with indexChanged := update.changed } := by
  rw [conclude_snd] at h
  rcases indexReport_cases h with hupdated | ⟨error, -, rfl⟩
  · exact hupdated
  · exact absurd hdone (by simp)

/-- A run ends the same on disks that look alike, and leaves them alike. -/
theorem conclude_alike (hdown : ".." ∉ report.indexPath.parts) (hcurrent : session.disk.HasCurrent)
    (hlook : LooksLike spared session.disk other.disk)
    (hspared : session.disk.place report.indexPath ∉ spared)
    (hlog : session.logLocations = spared) (hlogOther : other.logLocations = spared)
    (faults : Index.Faults) :
    (conclude faults other report).2 = (conclude faults session report).2 ∧
      LooksLike spared (conclude faults session report).1.disk
        (conclude faults other report).1.disk := by
  obtain ⟨hresult, hafter⟩ := Index.update_alike hdown hcurrent hlook hspared
    (report.entries.map IndexEntry.importPath) report.dryRun faults
  constructor
  · rw [conclude_snd, conclude_snd]
    exact congrArg (indexReport report) hresult
  · have hlogged := conclude_logged faults session report
    have hloggedOther := conclude_logged faults other report
    rw [hlog] at hlogged
    rw [hlogOther] at hloggedOther
    exact (LooksLike.of_logged hlogged).symm.trans (hafter.trans (LooksLike.of_logged hloggedOther))

end FfiBindings.Generation
