import FfiBindings.Proofs.Generation.Module
import FfiBindings.Proofs.Generation.Pool

/-!
The work on all modules, whatever the number of workers and however their steps interleave. Every event
keeps what is known of a pool (`poolRight_happen`): how far each module has come, that no other files changed,
and that the report has the entries of the outcomes that are taken up, in the order of the modules. At the
end of a run these are all of them (`Unhindered.work_right`).
-/

set_option autoImplicit false
set_option relaxedAutoImplicit false

namespace FfiBindings.Generation.Task

open Disk

variable (task : Task)

/-- The entry of a module in the report, if it exports functions. -/
def entryOf? (start : Disk) (source : SourceModule) : Option IndexEntry :=
  (task.functionsOf? start source).map fun functions =>
    ⟨source.importPath task.config.outputDirectory, functions.map (·.name)⟩

/-- A report on these modules, for the index of the task. -/
structure ReportRight (start : Disk) (sources : List SourceModule) (report : Report) : Prop where
  entries : report.entries = sources.filterMap (task.entryOf? start)
  indexPath : report.indexPath = task.config.indexPath
  dryRun : report.dryRun = false
  aborted : report.aborted = false

/-- What is known of a pool at any time. -/
structure PoolRight (start : Disk) (log : List Location) (sources : List SourceModule) (pool : Pool) :
    Prop where
  jobs : pool.jobs.map Job.source = sources
  journal : pool.session.logLocations = log
  changes : task.MayChange start log sources start pool.session.disk
  stages : ∀ (index : Nat) (job : Job), pool.jobs[index]? = some job →
    task.StageRight start pool.session.disk job.source job.stage
  taken : ∀ (index : Nat) (job : Job), index < pool.taken → pool.jobs[index]? = some job →
    ∃ outcome, job.stage = .finished outcome
  report : ∃ report, pool.report = .ok report ∧
    task.ReportRight start (sources.take pool.taken) report

/-- What the work on the modules leaves. -/
structure WorkRight (start : Disk) (log : List Location) (sources : List SourceModule)
    (after : Session) (report : Report) : Prop where
  journal : after.logLocations = log
  changes : task.MayChange start log sources start after.disk
  bound : ∀ source ∈ sources, ∀ functions, task.functionsOf? start source = some functions →
    ∃ layout mode, task.layOut source start functions = .ok layout ∧
      after.disk.tree.sight? (start.place (task.target source)) =
        some (.file layout.content.toUTF8 mode)
  report : task.ReportRight start sources report

variable {task} {start disk after : Disk} {log : List Location} {sources : List SourceModule}
  {source : SourceModule} {pool : Pool} {index : Nat} {job : Job}

namespace Unhindered

variable (h : task.Unhindered start log sources)
include h

/-- The binding of a module stays when another module is worked on. -/
theorem keeps_binding (hsource : source ∈ sources) {others : List SourceModule}
    (hothers : ∀ other ∈ others, other ∈ sources ∧ source ≠ other)
    (hchanges : task.MayChange start log others disk after) {content : ByteArray} {mode : Nat}
    (hfile : disk.tree.sight? (start.place (task.target source)) = some (.file content mode)) :
    after.tree.sight? (start.place (task.target source)) = some (.file content mode) := by
  refine (hchanges.sight?_eq_file_iff ?_).2 hfile
  rintro (⟨other, hother, -, hplace⟩ | ⟨hlog, -⟩)
  · have hapart := h.apart source hsource other (hothers other hother).1 (hothers other hother).2
    rw [hplace] at hapart
    exact hapart.1 (List.prefix_refl _)
  · exact (h.log _ hlog source hsource).2 (List.prefix_refl _)

/-- A step of one job keeps what is known of the pool. -/
theorem poolRight_advance (hnodup : sources.Nodup) (hpool : task.PoolRight start log sources pool)
    (index : Nat) : task.PoolRight start log sources (pool.advance task index) := by
  rcases Pool.advance_cases task pool index with hsame | ⟨job, hjob, hbegun⟩
  · rw [hsame]
    exact hpool
  have hsource := Pool.source_mem hpool.jobs hjob
  have hstep := h.advance_right hsource hpool.changes hpool.journal (hpool.stages index job hjob)
  rw [Pool.advance_eq hjob hbegun]
  refine ⟨Pool.map_source_set hpool.jobs hjob _, ?_, hpool.changes.trans (hstep.changes.mono hsource), ?_, ?_,
    hpool.report⟩
  · rw [← hpool.journal, Session.logLocations, Session.logLocations, hstep.handlers]
  · intro place moved hmoved
    rcases Pool.getElem?_set_cases hjob hmoved with ⟨-, rfl⟩ | ⟨hplace, hmoved⟩
    · exact hstep.stage
    · refine (hpool.stages place moved hmoved).of_keeps hstep.changes.keeps fun content mode hfile => ?_
      refine h.keeps_binding (Pool.source_mem hpool.jobs hmoved) (fun other hother => ?_) hstep.changes hfile
      rw [List.mem_singleton.1 hother]
      exact ⟨hsource, (Pool.source_ne hnodup hpool.jobs hjob hmoved hplace).symm⟩
  · intro place moved hplace hmoved
    rcases Pool.getElem?_set_cases hjob hmoved with ⟨rfl, rfl⟩ | ⟨-, hmoved⟩
    · obtain ⟨outcome, hfinished⟩ := hpool.taken index job hplace hjob
      exact ⟨outcome, by rw [hfinished]; rfl⟩
    · exact hpool.taken place moved hplace hmoved

/-- Taking an outcome up keeps what is known of the pool: only the journal goes on. -/
theorem poolRight_takeUp (hpool : task.PoolRight start log sources pool) :
    task.PoolRight start log sources (pool.takeUp task) := by
  rcases Pool.takeUp_cases task pool with hsame | ⟨report, source, outcome, hreport, hjob⟩
  · rw [hsame]
    exact hpool
  have hsource := Pool.source_mem hpool.jobs hjob
  have hstage : task.StageRight start pool.session.disk source (.finished outcome) :=
    hpool.stages pool.taken _ hjob
  obtain ⟨known, hknown, hright⟩ := hpool.report
  obtain rfl : report = known := Except.ok.inj (hreport.symm.trans hknown)
  have htake : sources.take (pool.taken + 1) = sources.take pool.taken ++ [source] := by
    rw [List.take_add_one, Pool.getElem?_source hpool.jobs hjob]
    rfl
  have htaken : ∀ (index : Nat) (job : Job), index < pool.taken + 1 → pool.jobs[index]? = some job →
      ∃ outcome, job.stage = .finished outcome := by
    intro index job hindex hthere
    rcases Nat.lt_succ_iff_lt_or_eq.1 hindex with hearlier | rfl
    · exact hpool.taken index job hearlier hthere
    · rw [hjob] at hthere
      exact ⟨outcome, congrArg Job.stage (Option.some.inj hthere).symm⟩
  rw [Pool.takeUp_eq hreport hjob]
  cases hstage with
  | bound functions layout mode hfunctions hlayout hsight =>
    refine ⟨hpool.jobs, hpool.journal, hpool.changes, hpool.stages, htaken, _, rfl, ?_, hright.indexPath,
      hright.dryRun, hright.aborted⟩
    have hentry : task.entryOf? start source = some (task.entry source layout) := by
      rw [entryOf?, hfunctions, Option.map_some, entry, layOut_names hlayout]
    show report.entries ++ [task.entry source layout] = _
    rw [htake, List.filterMap_append, hright.entries, List.filterMap_cons_some hentry,
      List.filterMap_nil]
  | noted diagnostic hfunctions =>
    have hlogged := Session.note_changes pool.session (diagnostic.logMessage journalName)
    rw [hpool.journal] at hlogged
    have hchanges := h.mayChange_of_logged hpool.changes hlogged []
    refine ⟨hpool.jobs, ?_, ?_, fun index job hthere => ?_, htaken, _, rfl, ?_, hright.indexPath,
      hright.dryRun, hright.aborted⟩
    · show (pool.session.note (diagnostic.logMessage journalName)).logLocations = log
      rw [← hpool.journal, Session.logLocations, Session.note_handlers, Session.logLocations]
    · exact hpool.changes.trans (h.mayChange_of_logged hpool.changes hlogged sources)
    · exact (hpool.stages index job hthere).of_keeps hchanges.keeps fun content mode hfile =>
        h.keeps_binding (Pool.source_mem hpool.jobs hthere) (by simp) hchanges hfile
    · have hentry : task.entryOf? start source = none := by
        rw [entryOf?, hfunctions, Option.map_none]
      show report.entries = _
      rw [htake, List.filterMap_append, hright.entries, List.filterMap_cons_none hentry,
        List.filterMap_nil, List.append_nil]

/-- The step: whatever happens next, it keeps what is known of the pool. -/
theorem poolRight_happen (hnodup : sources.Nodup) (hpool : task.PoolRight start log sources pool)
    (event : Event) : task.PoolRight start log sources (pool.happen task event) := by
  cases event with
  | advance index => exact h.poolRight_advance hnodup hpool index
  | takeUp => exact h.poolRight_takeUp hpool

/-- The run: all modules come to what their sources hold, in any order of steps. -/
theorem work_right (hnodup : sources.Nodup) {session : Session}
    (hsofar : task.MayChange start log sources start session.disk) (hlog : session.logLocations = log)
    {report : Report} (hreport : task.ReportRight start [] report) (workers : Int)
    (events : List Event) :
    ∃ after final, task.work workers events sources session report = (after, .ok final) ∧
      task.WorkRight start log sources after final := by
  have hstart : task.PoolRight start log sources (Pool.start sources session report) := by
    refine ⟨Pool.sources_start sources session report, hlog, hsofar, ?_, ?_, report, rfl, ?_⟩
    · intro index job hjob
      obtain ⟨source, -, rfl⟩ := Pool.exists_waiting hjob
      exact .waiting
    · intro index job hindex
      exact absurd hindex (Nat.not_lt_zero index)
    · simpa [Pool.start] using hreport
  obtain ⟨pool, hwork, hend, hcomplete⟩ := @Task.work_invariant task (task.PoolRight start log sources)
    (fun _ event hpool => h.poolRight_happen hnodup hpool event) sources session report hstart workers events
  rw [hwork]
  obtain ⟨final, hfinal, hright⟩ := hend.report
  have hall : sources.length ≤ pool.taken := by
    rcases hcomplete with hhalted | htaken
    · rw [Pool.isHalted, hfinal] at hhalted
      exact absurd hhalted (by simp)
    · exact htaken
  rw [List.take_of_length_le hall] at hright
  refine ⟨pool.session, final, by rw [hfinal], hend.journal, hend.changes, ?_, hright⟩
  intro source hsource functions hfunctions
  have hmem := hsource
  rw [← hend.jobs, List.mem_map] at hmem
  obtain ⟨job, hmem, rfl⟩ := hmem
  obtain ⟨index, hjob⟩ := List.mem_iff_getElem?.1 hmem
  have hindex : index < pool.taken := by
    have hbound := (List.getElem?_eq_some_iff.1 (Pool.getElem?_source hend.jobs hjob)).1
    omega
  have hstage := hend.stages index job hjob
  obtain ⟨outcome, hfinished⟩ := hend.taken index job hindex hjob
  rw [hfinished] at hstage
  cases hstage with
  | bound known layout mode hknown hlayout hsight =>
    rw [hfunctions] at hknown
    obtain rfl := Option.some.inj hknown
    exact ⟨layout, mode, hlayout, hsight⟩
  | noted diagnostic hnone =>
    rw [hfunctions] at hnone
    exact absurd hnone (by simp)

end Unhindered

end FfiBindings.Generation.Task
