import FfiBindings.Proofs.Generation.Alone
import FfiBindings.Proofs.Generation.Reported

/-!
The work on all modules, told by the work on each of them alone. However the steps of different modules
interleave, each module takes the steps that it takes by itself (`poolFollows_happen`), so what is reported
is made of the outcomes of the modules by themselves, and the disk comes to show at every binding what the
module brings there by itself, and the directories that the modules make by themselves (`work_settled`).
-/

set_option autoImplicit false
set_option relaxedAutoImplicit false

namespace FfiBindings.Generation

open Disk

namespace Task

variable (task : Task)

/-- No module has its binding where another one or the journal has its files, or reads a binding. -/
structure Independent (start : Disk) (log : List Location) (sources : List SourceModule) : Prop where
  nodup : sources.Nodup
  steady : ∀ source ∈ sources, task.Steady source start
  apart : ∀ source ∈ sources, ∀ other ∈ sources, source ≠ other →
    Apart (start.place (task.target source)) (start.place (task.target other))
  unread : ∀ source ∈ sources, ∀ other ∈ sources,
    start.place source.path ≠ start.place (task.target other)
  log : ∀ location ∈ log, ∀ source ∈ sources, ¬ task.Reads source start location ∧
    location ≠ start.place (task.target source)

/-- Where files may come while the modules are worked on: the bindings, and the log file if it is there. -/
def BindingFiles (start : Disk) (log : List Location) (sources : List SourceModule) (before : Disk)
    (location : Location) : Prop :=
  (∃ source ∈ sources, location = start.place (task.target source)) ∨
    (location ∈ log ∧ before.tree.FileAt location)

/-- Where directories are when one of the modules is worked on by itself. -/
def AloneDirectories (start : Disk) (sources : List SourceModule) (location : Location) : Prop :=
  ∃ source ∈ sources, (task.alone source start).1.disk.tree.sight? location = some .directory

/-- What the work on the modules may do to a disk. -/
abbrev Settles (start : Disk) (log : List Location) (sources : List SourceModule)
    (before after : Disk) : Prop :=
  Changes (task.BindingFiles start log sources before) (task.AloneDirectories start sources) before after

/-- Every job of the pool has taken the first steps of its module by itself. -/
structure PoolFollows (start : Disk) (log : List Location) (sources : List SourceModule)
    (before : Disk) (pool : Pool) : Prop where
  jobs : pool.jobs.map Job.source = sources
  journal : pool.session.logLocations = log
  changes : task.Settles start log sources before pool.session.disk
  follows : ∀ (index : Nat) (job : Job), pool.jobs[index]? = some job →
    ∃ n, job.stage = task.stageAt job.source start n ∧
      task.Follows job.source start n pool.session.disk

variable {task} {start before disk after : Disk} {log : List Location} {sources : List SourceModule}
  {source other : SourceModule} {pool : Pool} {index n : Nat} {job : Job}

namespace Independent

variable (h : task.Independent start log sources)
include h

/-- A log file that is there was there before. -/
theorem fileAt_log (hsettles : task.Settles start log sources before disk) {location : Location}
    (hlog : location ∈ log) (hthere : disk.tree.FileAt location) :
    before.tree.FileAt location := by
  rcases hsettles.fileAt hthere with hbefore | ⟨source, hsource, hplace⟩ | ⟨-, hbefore⟩
  · exact hbefore
  · exact absurd hplace (h.log _ hlog source hsource).2
  · exact hbefore

/-- What the journal writes, no module sees. -/
theorem follows_of_logged (hsource : source ∈ sources) (hfollows : task.Follows source start n disk)
    (hlogged : Session.OnlyLogged log disk after) : task.Follows source start n after := by
  refine hfollows.of_changes (h.steady source hsource) hlogged ?_ ?_ fun hnone => hnone.elim
  · rintro location hreads ⟨hthere, -⟩
    exact (h.log _ hthere source hsource).1 hreads
  · rintro above - ⟨hthere, hfile⟩
    exact ⟨(h.log _ hthere source hsource).2, hfile⟩

/-- No directory comes to the place of another module's binding. -/
theorem sight?_of_diskAt (hsource : source ∈ sources) (hother : other ∈ sources) (hne : source ≠ other)
    (hdirectory : (task.diskAt source start n).tree.sight? (start.place (task.target other)) =
      some .directory) : start.tree.sight? (start.place (task.target other)) = some .directory := by
  have hsteady := h.steady source hsource
  have hapart := h.apart source hsource other hother hne
  by_contra hbefore
  refine (diskAt_changes task source hsteady.current n).sight?_ne_directory ?_ hbefore hdirectory
  intro hway
  exact hapart.2 (stepDirectories_above hsteady.down hway).1

/-- A step of one module is not seen by another one. -/
theorem follows_of_step (hsource : source ∈ sources) (hother : other ∈ sources) (hne : source ≠ other)
    {m : Nat} (hfollows : task.Follows other start m disk)
    (hchanges : Changes (task.StepFiles source log disk)
      (fun location => (task.diskAt source start n).tree.sight? location = some .directory) disk after) :
    task.Follows other start m after := by
  have hsteady := h.steady other hother
  have hkeeps := (diskAt_changes task other hsteady.current m).keeps.trans hfollows.keeps
  refine hfollows.of_changes hsteady hchanges ?_ ?_ fun hdirectory => ?_
  · rintro location hreads (hplace | ⟨hthere, -⟩)
    · rw [hkeeps.place_eq] at hplace
      rcases hreads with rfl | htemplate
      · exact h.unread other hother source hsource hplace
      · exact target_ne_template htemplate source hplace
    · exact (h.log _ hthere other hother).1 hreads
  · rintro above habove (hplace | ⟨hthere, hfile⟩)
    · rw [hkeeps.place_eq] at hplace
      exact absurd (hplace ▸ habove) (h.apart source hsource other hother hne).1
    · exact ⟨(h.log _ hthere other hother).2, hfile⟩
  · exact hkeeps.directory _ (h.sight?_of_diskAt hsource hother hne hdirectory)

/-! ### The events -/

/-- The step: a job takes the next step of its module by itself. -/
theorem poolFollows_advance (hpool : task.PoolFollows start log sources before pool) (index : Nat) :
    task.PoolFollows start log sources before (pool.advance task index) := by
  rcases Pool.advance_cases task pool index with hsame | ⟨job, hjob, hbegun⟩
  · rw [hsame]
    exact hpool
  have hsource := Pool.source_mem hpool.jobs hjob
  have hsteady := h.steady job.source hsource
  obtain ⟨n, hstage, hfollows⟩ := hpool.follows index job hjob
  have hlog : ∀ location ∈ pool.session.logLocations,
      ¬ task.Reads job.source start location ∧ location ≠ start.place (task.target job.source) := by
    intro location hthere
    rw [hpool.journal] at hthere
    exact h.log location hthere job.source hsource
  obtain ⟨hnext, hagain, hchanges⟩ := hfollows.advance hsteady hlog
  rw [hpool.journal] at hchanges
  have hhandlers := task.advance_handlers job.source pool.session (task.stageAt job.source start n)
  rw [Pool.advance_eq hjob hbegun, hstage]
  refine ⟨Pool.map_source_set hpool.jobs hjob _, ?_, ?_, fun place moved hmoved => ?_⟩
  · rw [← hpool.journal, Session.logLocations, Session.logLocations, hhandlers]
  · refine hpool.changes.trans (hchanges.mono (fun location hfile => ?_) fun location hdirectory => ?_)
    · rcases hfile with hplace | ⟨hthere, hfile⟩
      · refine .inl ⟨job.source, hsource, ?_⟩
        rw [hplace, hfollows.keeps.place_eq,
          (diskAt_changes task job.source hsteady.current n).keeps.place_eq]
      · exact .inr ⟨hthere, h.fileAt_log hpool.changes hthere hfile⟩
    · exact ⟨job.source, hsource,
        (diskAt_keeps_alone task job.source hsteady.current (n + 1)).directory location hdirectory⟩
  · rcases Pool.getElem?_set_cases hjob hmoved with ⟨-, rfl⟩ | ⟨hplace, hmoved⟩
    · exact ⟨n + 1, hnext, hagain⟩
    · obtain ⟨m, hthere, hother⟩ := hpool.follows place moved hmoved
      exact ⟨m, hthere, h.follows_of_step hsource (Pool.source_mem hpool.jobs hmoved)
        (Pool.source_ne h.nodup hpool.jobs hjob hmoved hplace) hother hchanges⟩

/-- Taking an outcome up is seen by no module. -/
theorem poolFollows_takeUp (hpool : task.PoolFollows start log sources before pool) :
    task.PoolFollows start log sources before (pool.takeUp task) := by
  rcases Pool.takeUp_cases task pool with hsame | ⟨report, source, outcome, hreport, hjob⟩
  · rw [hsame]
    exact hpool
  have hlogged := task.takeUp_onlyLogged source outcome pool.session report
  rw [hpool.journal] at hlogged
  rw [Pool.takeUp_eq hreport hjob]
  refine ⟨hpool.jobs, ?_, hlogged.after_changes hpool.changes fun _ hlog hthere => .inr ⟨hlog, hthere⟩,
    fun index job hthere => ?_⟩
  · rw [← hpool.journal, Session.logLocations, Session.logLocations, takeUp_handlers]
  · obtain ⟨n, hstage, hfollows⟩ := hpool.follows index job hthere
    exact ⟨n, hstage, h.follows_of_logged (Pool.source_mem hpool.jobs hthere) hfollows hlogged⟩

/-- Whatever happens next, every job goes on as its module does by itself. -/
theorem poolFollows_happen (hpool : task.PoolFollows start log sources before pool) (event : Event) :
    task.PoolFollows start log sources before (pool.happen task event) := by
  cases event with
  | advance index => exact h.poolFollows_advance hpool index
  | takeUp => exact h.poolFollows_takeUp hpool

end Independent

/-! ### All of the work -/

/-- The modules with their outcomes by themselves. -/
def aloneSteps (task : Task) (start : Disk) (sources : List SourceModule) :
    List (SourceModule × Outcome) :=
  sources.map fun source => (source, (task.alone source start).2)

/-- All of the work on a module is done: its directories are there, and its binding is what it is to be. -/
structure IsDone (task : Task) (source : SourceModule) (start disk : Disk) : Prop where
  sees : task.Sees source start disk
  keeps : KeepsDirectories (task.alone source start).1.disk disk
  binding : disk.tree.sight? (start.place (task.target source)) = task.finalSight source start

theorem Follows.isDone (h : task.Follows source start n disk)
    (hdisk : task.diskAt source start n = (task.alone source start).1.disk) :
    task.IsDone source start disk := by
  obtain ⟨hsees, hkeeps, hbinding⟩ := h
  rw [hdisk] at hkeeps hbinding
  exact ⟨hsees, hkeeps, hbinding.elim id id⟩

namespace PoolFollows

variable {report : Report} {steps : List (SourceModule × Outcome)}

/-- A job comes to the outcome of its module by itself. -/
theorem outcome_eq (h : task.PoolFollows start log sources before pool) (hjob : job ∈ pool.jobs)
    {outcome : Outcome} (hstage : job.stage = .finished outcome) :
    outcome = (task.alone job.source start).2 := by
  obtain ⟨index, hindex⟩ := List.mem_iff_getElem?.1 hjob
  obtain ⟨n, hsame, -⟩ := h.follows index job hindex
  exact eq_alone_of_stageAt (hsame.symm.trans hstage)

/-- Once everything is taken up, every module is finished. -/
theorem diskAt_eq_alone (h : task.PoolFollows start log sources before pool)
    (haccounts : Pool.Accounts task sources report steps pool) (hall : sources.length ≤ pool.taken)
    (hjob : pool.jobs[index]? = some job) (hstage : job.stage = task.stageAt job.source start n) :
    task.diskAt job.source start n = (task.alone job.source start).1.disk := by
  have hstep : steps[index]? = some (job.source, (task.alone job.source start).2) := by
    rw [haccounts.steps_eq (fun source => (task.alone source start).2) fun _ hthere _ => h.outcome_eq hthere,
      List.take_of_length_le hall, List.getElem?_map, Pool.getElem?_source h.jobs hjob,
      Option.map_some]
  have hfinished := haccounts.finished index job.source _ hstep
  rw [hjob] at hfinished
  have hend := aloneAt_eq_alone (hstage.symm.trans (congrArg Job.stage (Option.some.inj hfinished)))
  rw [diskAt, hend]

end PoolFollows

/-- However the steps of the modules interleave, the report is made of their outcomes by themselves. At
every binding the disk shows what some steps of the module by itself, or all of them, bring there; all of
them if the run is not halted. -/
theorem Independent.work_settled (h : task.Independent start log sources) {session : Session}
    (hbegin : ∀ source ∈ sources, task.Follows source start 0 session.disk)
    (hlog : session.logLocations = log) (workers : Int) (events : List Event) (report : Report) :
    let result := task.work workers events sources session report
    result.2 = task.reportedAll report (task.aloneSteps start sources) ∧
      result.1.logLocations = log ∧
      task.Settles start log sources session.disk result.1.disk ∧
      ∀ source ∈ sources, ∃ n, task.Follows source start n result.1.disk ∧
        ((∃ final, result.2 = .ok final) →
          task.diskAt source start n = (task.alone source start).1.disk) := by
  have hstart : task.PoolFollows start log sources session.disk (Pool.start sources session report) := by
    refine ⟨Pool.sources_start sources session report, hlog, .refl _ _ _, fun index job hjob => ?_⟩
    obtain ⟨source, hsource, rfl⟩ := Pool.exists_waiting hjob
    exact ⟨0, rfl, hbegin source hsource⟩
  obtain ⟨pool, steps, hwork, hpool, haccounts, hcomplete⟩ := @work_accounts task sources
    (task.PoolFollows start log sources session.disk) (fun _ event hpool => h.poolFollows_happen hpool event)
    session report hstart workers events
  rw [hwork]
  refine ⟨haccounts.report_eq (fun source => (task.alone source start).2)
    (fun _ hthere _ => hpool.outcome_eq hthere) hcomplete, hpool.journal, hpool.changes, fun source hsource => ?_⟩
  obtain ⟨index, hindex⟩ := List.mem_iff_getElem?.1 hsource
  have hjob : ∃ job, pool.jobs[index]? = some job ∧ job.source = source := by
    rw [← hpool.jobs, List.getElem?_map, Option.map_eq_some_iff] at hindex
    exact hindex
  obtain ⟨job, hjob, rfl⟩ := hjob
  obtain ⟨n, hstage, hfollows⟩ := hpool.follows index job hjob
  refine ⟨n, hfollows, ?_⟩
  rintro ⟨final, hfinal⟩
  exact hpool.diskAt_eq_alone haccounts (Pool.Accounts.length_le_taken hcomplete hfinal) hjob hstage

end Task

end FfiBindings.Generation
