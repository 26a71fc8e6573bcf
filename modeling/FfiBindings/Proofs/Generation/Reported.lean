import FfiBindings.Proofs.Generation.Frame
import FfiBindings.Proofs.Generation.Pool

/-!
What a run reports. Outcomes are taken up in the order of the modules, so the report on the modules is told
by their outcomes alone, whatever else happens in the pool (`work_accounts`, `work_reported`).
-/

set_option autoImplicit false
set_option relaxedAutoImplicit false

namespace FfiBindings.Generation

namespace Task

variable (task : Task)

/-- A report when one more outcome is taken up. -/
def reported (report : Report) (step : SourceModule × Outcome) : Except Halt Report :=
  (task.takeUp step.1 step.2 ⟨{ tree := .empty }, {}⟩ report).2

/-- A report when these outcomes are taken up, up to the first one that halts the run. -/
def reportedAll (report : Report) (steps : List (SourceModule × Outcome)) : Except Halt Report :=
  steps.foldlM task.reported report

variable {task} {source : SourceModule} {outcome : Outcome} {session : Session} {report : Report}
  {steps : List (SourceModule × Outcome)}

@[simp] theorem reportedAll_nil (task : Task) (report : Report) : task.reportedAll report [] = .ok report := rfl

@[simp] theorem reportedAll_bound (task : Task) (report : Report) (source : SourceModule) (entry : IndexEntry)
    (written : Path) (steps : List (SourceModule × Outcome)) :
    task.reportedAll report ((source, .bound entry written) :: steps) =
      task.reportedAll { report with
        entries := report.entries ++ [entry], written := report.written ++ [written] } steps := rfl

@[simp] theorem reportedAll_noted (task : Task) (report : Report) (source : SourceModule) (diagnostic : Diagnostic)
    (steps : List (SourceModule × Outcome)) :
    task.reportedAll report ((source, .noted diagnostic) :: steps) =
      task.reportedAll { report with diagnostics := report.diagnostics ++ [diagnostic] } steps := rfl

@[simp] theorem reportedAll_unsupported (task : Task) (report : Report) (source : SourceModule)
    (error : Platform.Unsupported) (steps : List (SourceModule × Outcome)) :
    task.reportedAll report ((source, .unsupported error) :: steps) =
      .error (.aborted { report with
        diagnostics := report.diagnostics ++ [⟨.error, displayed source.path task.config.root, error.message⟩]
        aborted := true }) := rfl

@[simp] theorem reportedAll_stopped (task : Task) (report : Report) (source : SourceModule) (error : RunError)
    (steps : List (SourceModule × Outcome)) :
    task.reportedAll report ((source, .stopped error) :: steps) = .error (.stopped error) := rfl

/-- What is reported does not depend on the journal. -/
theorem takeUp_snd (task : Task) (source : SourceModule) (outcome : Outcome) (session : Session)
    (report : Report) :
    (task.takeUp source outcome session report).2 = task.reported report (source, outcome) := by
  cases outcome <;> rfl

theorem takeUp_handlers (task : Task) (source : SourceModule) (outcome : Outcome) (session : Session)
    (report : Report) :
    (task.takeUp source outcome session report).1.journal.handlers = session.journal.handlers := by
  cases outcome with
  | bound entry written => rfl
  | noted diagnostic => exact session.note_handlers _
  | unsupported error => exact session.note_handlers _
  | stopped error => rfl

/-- Taking an outcome up is told to the journal alone. -/
theorem takeUp_onlyLogged (task : Task) (source : SourceModule) (outcome : Outcome) (session : Session)
    (report : Report) :
    Session.OnlyLogged session.logLocations session.disk
      (task.takeUp source outcome session report).1.disk := by
  cases outcome with
  | bound entry written => exact Disk.Changes.refl _ _ _
  | noted diagnostic => exact session.note_changes _
  | unsupported error => exact session.note_changes _
  | stopped error => exact Disk.Changes.refl _ _ _

theorem reportedAll_concat (task : Task) (report : Report) (steps : List (SourceModule × Outcome))
    (step : SourceModule × Outcome) :
    task.reportedAll report (steps ++ [step]) =
      task.reportedAll report steps >>= fun report => task.reported report step := by
  rw [reportedAll, List.foldlM_append]
  simp [reportedAll]

/-- A run that has halted reports nothing of the outcomes after that. -/
theorem reportedAll_append_of_error {halt : Halt} (h : task.reportedAll report steps = .error halt)
    (more : List (SourceModule × Outcome)) : task.reportedAll report (steps ++ more) = .error halt := by
  unfold reportedAll at h ⊢
  rw [List.foldlM_append, h]
  rfl

/-- What of a report the modules do not touch. -/
theorem reportedAll_settings {final : Report} (h : task.reportedAll report steps = .ok final) :
    final.indexPath = report.indexPath ∧ final.dryRun = report.dryRun ∧
      final.aborted = report.aborted ∧ final.indexChanged = report.indexChanged := by
  induction steps generalizing report with
  | nil =>
    obtain rfl := Except.ok.inj h
    exact ⟨rfl, rfl, rfl, rfl⟩
  | cons step steps ih =>
    obtain ⟨source, outcome⟩ := step
    cases outcome with
    | bound entry written =>
      rw [reportedAll_bound] at h
      have hnext := ih h
      exact hnext
    | noted diagnostic =>
      rw [reportedAll_noted] at h
      have hnext := ih h
      exact hnext
    | unsupported error => exact absurd h (by simp)
    | stopped error => exact absurd h (by simp)

/-- A run that halts with a report is aborted. -/
theorem reportedAll_aborted {final : Report} (h : task.reportedAll report steps = .error (.aborted final)) :
    final.aborted = true := by
  induction steps generalizing report with
  | nil => exact absurd h (by simp)
  | cons step steps ih =>
    obtain ⟨source, outcome⟩ := step
    cases outcome with
    | bound entry written =>
      rw [reportedAll_bound] at h
      exact ih h
    | noted diagnostic =>
      rw [reportedAll_noted] at h
      exact ih h
    | unsupported error =>
      rw [reportedAll_unsupported] at h
      rw [← Halt.aborted.inj (Except.error.inj h)]
    | stopped error => exact absurd h (by simp)

/-- Where no outcome halts the run, each of them has brought an entry or a diagnostic, and both stay. -/
theorem reportedAll_mem {final : Report} (h : task.reportedAll report steps = .ok final) :
    report.entries ⊆ final.entries ∧ report.diagnostics ⊆ final.diagnostics ∧
      ∀ step ∈ steps, (∃ entry written, step.2 = .bound entry written ∧ entry ∈ final.entries) ∨
        ∃ diagnostic, step.2 = .noted diagnostic ∧ diagnostic ∈ final.diagnostics := by
  induction steps generalizing report with
  | nil =>
    obtain rfl := Except.ok.inj h
    exact ⟨List.Subset.refl _, List.Subset.refl _, by simp⟩
  | cons step steps ih =>
    obtain ⟨source, outcome⟩ := step
    cases outcome with
    | bound entry written =>
      rw [reportedAll_bound] at h
      obtain ⟨hentries, hdiagnostics, hrest⟩ := ih h
      refine ⟨fun other hother => hentries (List.mem_append_left _ hother), hdiagnostics,
        List.forall_mem_cons.2 ⟨.inl ⟨entry, written, rfl, ?_⟩, hrest⟩⟩
      exact hentries (List.mem_append_right _ (List.mem_singleton_self entry))
    | noted diagnostic =>
      rw [reportedAll_noted] at h
      obtain ⟨hentries, hdiagnostics, hrest⟩ := ih h
      refine ⟨hentries, fun other hother => hdiagnostics (List.mem_append_left _ hother),
        List.forall_mem_cons.2 ⟨.inr ⟨diagnostic, rfl, ?_⟩, hrest⟩⟩
      exact hdiagnostics (List.mem_append_right _ (List.mem_singleton_self diagnostic))
    | unsupported error => exact absurd h (by simp)
    | stopped error => exact absurd h (by simp)

end Task

namespace Pool

variable {task : Task} {sources : List SourceModule} {pool : Pool} {report : Report} {index : Nat}
  {job : Job}

/-! ### What is known of the stages -/

/-- What every step of a module keeps on the sessions that are passed through is known of all jobs. -/
theorem foldl_stages {holds : SourceModule → Stage → Prop} {seen : Session → Prop}
    (hstep : ∀ source session stage, seen session → seen (task.advance source session stage).1 →
      holds source stage → holds source (task.advance source session stage).2) (events : List Event)
    (hseen : ∀ front, front <+: events → seen (front.foldl (happen task) pool).session)
    (h : ∀ job ∈ pool.jobs, holds job.source job.stage) :
    ∀ job ∈ (events.foldl (happen task) pool).jobs, holds job.source job.stage := by
  induction events generalizing pool with
  | nil => exact h
  | cons event events ih =>
    refine ih (fun front hfront => hseen (event :: front) ((List.prefix_cons_inj event).2 hfront)) ?_
    have hpool : seen pool.session := hseen [] (List.nil_prefix)
    cases event with
    | advance index =>
      rw [happen]
      rcases advance_cases task pool index with hsame | ⟨job, hjob, hbegun⟩
      · rw [hsame]
        exact h
      · rw [advance_eq hjob hbegun]
        intro other hother
        rcases List.mem_or_eq_of_mem_set hother with hmem | rfl
        · exact h other hmem
        · refine hstep _ _ _ hpool ?_ (h job (List.mem_of_getElem? hjob))
          have hnext := hseen [.advance index] ((List.prefix_cons_inj _).2 List.nil_prefix)
          rw [List.foldl_cons, List.foldl_nil, happen, advance_eq hjob hbegun] at hnext
          exact hnext
    | takeUp =>
      rw [happen]
      rcases takeUp_cases task pool with hsame | ⟨report, source, outcome, hreport, hjob⟩
      · rw [hsame]
        exact h
      · rw [takeUp_eq hreport hjob]
        exact h

/-- Something is known of all stages and of the disk, and the journal goes to the same file. -/
structure Keeps (stages : SourceModule → Stage → Prop) (disks : Disk → Prop) (log : List Location)
    (pool : Pool) : Prop where
  stages : ∀ job ∈ pool.jobs, stages job.source job.stage
  logged : pool.session.logLocations = log
  disk : disks pool.session.disk

/-- What the step of a job keeps, and what the journal writes keeps, is kept by an event. -/
theorem Keeps.happen {stages : SourceModule → Stage → Prop} {disks : Disk → Prop} {log : List Location}
    (h : pool.Keeps stages disks log) (event : Event)
    (hstep : ∀ index job, event = .advance index → pool.jobs[index]? = some job →
      (job.stage.isWaiting && pool.isHalted) = false →
      stages job.source (task.advance job.source pool.session job.stage).2 ∧
        disks (task.advance job.source pool.session job.stage).1.disk)
    (hlogged : ∀ after, Session.OnlyLogged log pool.session.disk after → disks after) :
    (pool.happen task event).Keeps stages disks log := by
  cases event with
  | advance index =>
    rw [Pool.happen]
    rcases advance_cases task pool index with hsame | ⟨job, hjob, hbegun⟩
    · rw [hsame]
      exact h
    · obtain ⟨hstage, hdisk⟩ := hstep index job rfl hjob hbegun
      rw [advance_eq hjob hbegun]
      refine ⟨fun other hother => ?_, ?_, hdisk⟩
      · rcases List.mem_or_eq_of_mem_set hother with hmem | rfl
        · exact h.stages other hmem
        · exact hstage
      · show (task.advance job.source pool.session job.stage).1.logLocations = log
        rw [Session.logLocations, Task.advance_handlers, ← Session.logLocations, h.logged]
  | takeUp =>
    rw [Pool.happen]
    rcases takeUp_cases task pool with hsame | ⟨report, source, outcome, hreport, hjob⟩
    · rw [hsame]
      exact h
    · have hstep := task.takeUp_onlyLogged source outcome pool.session report
      rw [h.logged] at hstep
      rw [takeUp_eq hreport hjob]
      refine ⟨h.stages, ?_, hlogged _ hstep⟩
      show (task.takeUp source outcome pool.session report).1.logLocations = log
      rw [Session.logLocations, Task.takeUp_handlers, ← Session.logLocations, h.logged]

theorem Keeps.start {stages : SourceModule → Stage → Prop} {disks : Disk → Prop} {session : Session}
    (hstages : ∀ source ∈ sources, stages source .waiting) (hdisk : disks session.disk) (report : Report) :
    (Pool.start sources session report).Keeps stages disks session.logLocations := by
  refine ⟨fun job hjob => ?_, rfl, hdisk⟩
  obtain ⟨source, hsource, rfl⟩ := List.mem_map.1 hjob
  exact hstages source hsource

/-- What every step of a module keeps, and what the journal writes keeps, is kept by any number of events. -/
theorem Keeps.foldl_happen (task : Task) {stages : SourceModule → Stage → Prop} {disks : Disk → Prop}
    {log : List Location}
    (hstep : ∀ source session stage, session.logLocations = log → disks session.disk → stages source stage →
      stages source (task.advance source session stage).2 ∧ disks (task.advance source session stage).1.disk)
    (hlogged : ∀ disk after, disks disk → Session.OnlyLogged log disk after → disks after) (events : List Event)
    (h : pool.Keeps stages disks log) : (events.foldl (Pool.happen task) pool).Keeps stages disks log := by
  induction events generalizing pool with
  | nil => exact h
  | cons event events ih =>
    refine ih (h.happen event (fun index job _ hjob _ => ?_) fun after => hlogged _ after h.disk)
    exact hstep _ _ _ h.logged h.disk (h.stages job (List.mem_of_getElem? hjob))

/-! ### What is taken up -/

/-- The steps are the outcomes of the first modules, so many as are taken up, and make the report. -/
structure Accounts (task : Task) (sources : List SourceModule) (start : Report)
    (steps : List (SourceModule × Outcome)) (pool : Pool) : Prop where
  jobs : pool.jobs.map Job.source = sources
  sources : steps.map Prod.fst = sources.take pool.taken
  finished : ∀ (index : Nat) (source : SourceModule) (outcome : Outcome),
    steps[index]? = some (source, outcome) → pool.jobs[index]? = some ⟨source, .finished outcome⟩
  report : pool.report = task.reportedAll start steps

variable {start : Report} {steps : List (SourceModule × Outcome)}

namespace Accounts

theorem of_start (task : Task) (sources : List SourceModule) (session : Session) (report : Report) :
    Accounts task sources report [] (Pool.start sources session report) where
  jobs := sources_start sources session report
  sources := rfl
  finished _ _ _ hnone := absurd hnone (by simp)
  report := rfl

/-- A step of a job changes no outcome that is taken up. -/
theorem advance (h : Accounts task sources start steps pool) (index : Nat) :
    Accounts task sources start steps (pool.advance task index) := by
  rcases advance_cases task pool index with hsame | ⟨job, hjob, hbegun⟩
  · rw [hsame]
    exact h
  have hlength := (List.getElem?_eq_some_iff.1 hjob).1
  rw [advance_eq hjob hbegun]
  refine ⟨map_source_set h.jobs hjob _, h.sources, fun place source outcome hstep => ?_, h.report⟩
  have hother := h.finished place source outcome hstep
  show (pool.jobs.set index _)[place]? = _
  by_cases hplace : index = place
  · subst hplace
    obtain rfl := Option.some.inj (hjob.symm.trans hother)
    exact List.getElem?_set_self hlength
  · rw [List.getElem?_set_ne hplace]
    exact hother

theorem takeUp (h : Accounts task sources start steps pool) :
    ∃ more, Accounts task sources start (steps ++ more) (pool.takeUp task) := by
  rcases takeUp_cases task pool with hsame | ⟨report, source, outcome, hreport, hjob⟩
  · rw [hsame]
    exact ⟨[], by rwa [List.append_nil]⟩
  have hnext := Pool.getElem?_source h.jobs hjob
  have hlength : steps.length = pool.taken := by
    have hbound := (List.getElem?_eq_some_iff.1 hnext).1
    have hmap := congrArg List.length h.sources
    rw [List.length_map, List.length_take] at hmap
    omega
  rw [takeUp_eq hreport hjob]
  refine ⟨[(source, outcome)], h.jobs, ?_, fun index other last hstep => ?_, ?_⟩
  · show (steps ++ [(source, outcome)]).map Prod.fst = sources.take (pool.taken + 1)
    rw [List.map_append, h.sources, List.take_add_one, hnext]
    rfl
  · rcases Nat.lt_trichotomy index steps.length with hearlier | rfl | hlater
    · rw [List.getElem?_append_left hearlier] at hstep
      exact h.finished index other last hstep
    · rw [List.getElem?_concat_length, Option.some.injEq] at hstep
      obtain ⟨rfl, rfl⟩ := Prod.mk.inj hstep
      rw [hlength]
      exact hjob
    · rw [List.getElem?_eq_none (by simp; omega)] at hstep
      exact absurd hstep (by simp)
  · show (task.takeUp source outcome pool.session report).2 = _
    rw [Task.takeUp_snd, Task.reportedAll_concat, ← h.report, hreport]
    rfl

/-- A pool that has not halted has taken up everything in the end. -/
theorem length_le_taken {final : Report} (hcomplete : pool.TakenOrHalted sources.length)
    (hok : pool.report = .ok final) : sources.length ≤ pool.taken := by
  refine hcomplete.resolve_left fun hhalted => ?_
  rw [isHalted, hok] at hhalted
  exact absurd hhalted (by simp)

/-- What is taken up are the outcomes that the jobs can come to. -/
theorem steps_eq (h : Accounts task sources start steps pool) (outcomeOf : SourceModule → Outcome)
    (houtcome : ∀ job ∈ pool.jobs, ∀ outcome, job.stage = .finished outcome → outcome = outcomeOf job.source) :
    steps = (sources.take pool.taken).map fun source => (source, outcomeOf source) := by
  rw [← h.sources, List.map_map]
  conv_lhs => rw [← List.map_id steps]
  refine List.map_congr_left fun step hstep => ?_
  obtain ⟨source, outcome⟩ := step
  obtain ⟨index, hindex⟩ := List.mem_iff_getElem?.1 hstep
  have hjob := h.finished index source outcome hindex
  rw [id, houtcome _ (List.mem_of_getElem? hjob) outcome rfl]
  rfl

/-- In the end the report is made of the outcomes that all jobs can come to, or of those up to the one that halts
the run. -/
theorem report_eq (h : Accounts task sources start steps pool) (outcomeOf : SourceModule → Outcome)
    (houtcome : ∀ job ∈ pool.jobs, ∀ outcome, job.stage = .finished outcome → outcome = outcomeOf job.source)
    (hcomplete : pool.TakenOrHalted sources.length) :
    pool.report = task.reportedAll start (sources.map fun source => (source, outcomeOf source)) := by
  have hsofar := h.report
  rw [h.steps_eq outcomeOf houtcome] at hsofar
  cases hreport : task.reportedAll start
      ((sources.take pool.taken).map fun source => (source, outcomeOf source)) with
  | ok final =>
    have hall := length_le_taken hcomplete (hsofar.trans hreport)
    rw [hsofar, List.take_of_length_le hall]
  | error halt =>
    rw [hsofar, hreport]
    conv_rhs => rw [← List.take_append_drop pool.taken sources, List.map_append]
    exact (Task.reportedAll_append_of_error hreport _).symm

end Accounts

theorem exists_accounts_happen (h : ∃ steps, Accounts task sources start steps pool) (event : Event) :
    ∃ steps, Accounts task sources start steps (pool.happen task event) := by
  obtain ⟨steps, haccounts⟩ := h
  cases event with
  | advance index => exact ⟨steps, haccounts.advance index⟩
  | takeUp =>
    obtain ⟨more, hmore⟩ := haccounts.takeUp
    exact ⟨steps ++ more, hmore⟩

/-- Whatever happens to a pool from its start on, what is taken up makes its report. -/
theorem exists_accounts (task : Task) (sources : List SourceModule) (session : Session) (start : Report)
    (events : List Event) :
    ∃ steps, Accounts task sources start steps (events.foldl (happen task) (Pool.start sources session start)) :=
  @foldl_happen task _ (fun pool => ∃ steps, Accounts task sources start steps pool)
    (fun _ event h => exists_accounts_happen h event) events ⟨[], .of_start task sources session start⟩

end Pool

namespace Task

variable {task : Task} {sources : List SourceModule} {start : Report}

/-- The pool that the work on the modules ends with: what every event preserves holds of it, and what is taken up
makes its report. -/
theorem work_accounts {holds : Pool → Prop}
    (hstep : ∀ pool event, holds pool → holds (pool.happen task event)) {session : Session} {report : Report}
    (h : holds (Pool.start sources session report)) (workers : Int) (events : List Event) :
    ∃ pool steps, task.work workers events sources session report = (pool.session, pool.report) ∧ holds pool ∧
      Pool.Accounts task sources report steps pool ∧ pool.TakenOrHalted sources.length := by
  obtain ⟨pool, hwork, ⟨hholds, steps, haccounts⟩, hcomplete⟩ := @work_invariant task
    (fun pool => holds pool ∧ ∃ steps, Pool.Accounts task sources report steps pool)
    (fun pool event hpool => ⟨hstep pool event hpool.1, Pool.exists_accounts_happen hpool.2 event⟩)
    sources session report ⟨h, [], .of_start task sources session report⟩ workers events
  exact ⟨pool, steps, hwork, hholds, haccounts, hcomplete⟩

/-- Whatever the work on the modules comes to is made of outcomes. -/
theorem exists_reportedAll (task : Task) (workers : Int) (events : List Event) (sources : List SourceModule)
    (session : Session) (report : Report) :
    ∃ steps, (task.work workers events sources session report).2 = task.reportedAll report steps := by
  obtain ⟨pool, steps, hwork, -, haccounts, -⟩ := @work_accounts task sources (fun _ => True)
    (fun _ _ _ => trivial) session report trivial workers events
  exact ⟨steps, by rw [hwork, haccounts.report]⟩

/-- What is known of the session at any time, and of every module at its stage on the disk of that session. A step
of a module keeps it for that module and for every other one, and so does taking an outcome up. -/
structure Maintains (task : Task) (sources : List SourceModule) (seen : Session → Prop)
    (holds : Disk → SourceModule → Stage → Prop) : Prop where
  advance : ∀ source ∈ sources, ∀ session stage, seen session → seen (task.advance source session stage).1
  takeUp : ∀ source outcome session report, seen session → seen (task.takeUp source outcome session report).1
  own : ∀ source ∈ sources, ∀ session stage, seen session → holds session.disk source stage →
    holds (task.advance source session stage).1.disk source (task.advance source session stage).2
  other : ∀ (index place : Nat) source other, index ≠ place → sources[index]? = some source →
    sources[place]? = some other → ∀ session stage reached, seen session → holds session.disk other reached →
      holds (task.advance source session stage).1.disk other reached
  later : ∀ other ∈ sources, ∀ source outcome session report reached, seen session →
    holds session.disk other reached → holds (task.takeUp source outcome session report).1.disk other reached

/-- What is known of a pool whose session and jobs are known. -/
structure PoolHolds (sources : List SourceModule) (seen : Session → Prop)
    (holds : Disk → SourceModule → Stage → Prop) (pool : Pool) : Prop where
  jobs : pool.jobs.map Job.source = sources
  session : seen pool.session
  stages : ∀ (index : Nat) (job : Job), pool.jobs[index]? = some job →
    holds pool.session.disk job.source job.stage

section

variable {seen : Session → Prop} {holds : Disk → SourceModule → Stage → Prop} {pool : Pool}

theorem PoolHolds.advance (hmaintains : task.Maintains sources seen holds)
    (h : PoolHolds sources seen holds pool) (index : Nat) :
    PoolHolds sources seen holds (pool.advance task index) := by
  rcases Pool.advance_cases task pool index with hsame | ⟨job, hjob, hbegun⟩
  · rw [hsame]
    exact h
  have hindex := Pool.getElem?_source h.jobs hjob
  have hsource := List.mem_of_getElem? hindex
  rw [Pool.advance_eq hjob hbegun]
  refine ⟨Pool.map_source_set h.jobs hjob _, hmaintains.advance _ hsource _ _ h.session,
    fun place moved hmoved => ?_⟩
  rcases Pool.getElem?_set_cases hjob hmoved with ⟨-, rfl⟩ | ⟨hplace, hmoved⟩
  · exact hmaintains.own _ hsource _ _ h.session (h.stages index job hjob)
  · exact hmaintains.other index place _ _ hplace hindex (Pool.getElem?_source h.jobs hmoved) _ _ _ h.session
      (h.stages place moved hmoved)

theorem PoolHolds.takeUp (hmaintains : task.Maintains sources seen holds)
    (h : PoolHolds sources seen holds pool) : PoolHolds sources seen holds (pool.takeUp task) := by
  rcases Pool.takeUp_cases task pool with hsame | ⟨report, source, outcome, hreport, hjob⟩
  · rw [hsame]
    exact h
  rw [Pool.takeUp_eq hreport hjob]
  refine ⟨h.jobs, hmaintains.takeUp _ _ _ _ h.session, fun index job hthere => ?_⟩
  exact hmaintains.later _ (Pool.source_mem h.jobs hthere) _ _ _ _ _ h.session
    (h.stages index job hthere)

theorem PoolHolds.happen (hmaintains : task.Maintains sources seen holds)
    (h : PoolHolds sources seen holds pool) (event : Event) :
    PoolHolds sources seen holds (pool.happen task event) := by
  cases event with
  | advance index => exact h.advance hmaintains index
  | takeUp => exact h.takeUp hmaintains

/-- What is maintained at every step is known when the work on the modules is done, of the session and of the
outcomes that make the report. -/
theorem Maintains.work (hmaintains : task.Maintains sources seen holds) {session : Session} (h : seen session)
    (hwaiting : ∀ source ∈ sources, holds session.disk source .waiting) (workers : Int) (events : List Event)
    (report : Report) :
    seen (task.work workers events sources session report).1 ∧
      ∃ steps : List (SourceModule × Outcome),
        (task.work workers events sources session report).2 = task.reportedAll report steps ∧
        (∀ step ∈ steps, step.1 ∈ sources ∧
          holds (task.work workers events sources session report).1.disk step.1 (.finished step.2)) ∧
        ((∃ final, task.reportedAll report steps = .ok final) → steps.map Prod.fst = sources) := by
  have hstart : PoolHolds sources seen holds (Pool.start sources session report) := by
    refine ⟨Pool.sources_start sources session report, h, fun index job hjob => ?_⟩
    obtain ⟨source, hsource, rfl⟩ := Pool.exists_waiting hjob
    exact hwaiting source hsource
  obtain ⟨pool, steps, hwork, hend, haccounts, hcomplete⟩ := @work_accounts task sources
    (PoolHolds sources seen holds) (fun _ event hpool => hpool.happen hmaintains event) session report hstart
    workers events
  rw [hwork]
  refine ⟨hend.session, steps, haccounts.report, ?_, ?_⟩
  · rintro ⟨source, outcome⟩ hstep
    obtain ⟨index, hindex⟩ := List.mem_iff_getElem?.1 hstep
    have hjob := haccounts.finished index source outcome hindex
    exact ⟨Pool.source_mem hend.jobs hjob, hend.stages index _ hjob⟩
  · rintro ⟨final, hfinal⟩
    rw [haccounts.sources, List.take_of_length_le]
    exact Pool.Accounts.length_le_taken hcomplete (haccounts.report.trans hfinal)

end

/-- What every step of one of the modules keeps of the session, and what taking an outcome up keeps, the work on
the modules keeps. -/
theorem work_session {seen : Session → Prop}
    (hadvance : ∀ source ∈ sources, ∀ session stage, seen session → seen (task.advance source session stage).1)
    (htakeUp : ∀ source outcome session report, seen session →
      seen (task.takeUp source outcome session report).1)
    {session : Session} (workers : Int) (events : List Event) (report : Report) (h : seen session) :
    seen (task.work workers events sources session report).1 := by
  have hmaintains : task.Maintains sources seen fun _ _ _ => True :=
    ⟨hadvance, htakeUp, fun _ _ _ _ _ _ => trivial, fun _ _ _ _ _ _ _ _ _ _ _ _ => trivial,
      fun _ _ _ _ _ _ _ _ _ => trivial⟩
  exact (hmaintains.work h (fun _ _ => trivial) workers events report).1

/-- The report on the modules is made of their outcomes, in their order: of all of them, unless one halts
the run. What every step of a module keeps on the sessions that are passed through is known of the outcomes. -/
theorem work_reported {holds : SourceModule → Stage → Prop} (workers : Int) (events : List Event)
    (session : Session) (start : Report) (hwaiting : ∀ source ∈ sources, holds source .waiting)
    (hstep : ∀ source passed stage, task.Passes workers events sources session start passed →
      task.Passes workers events sources session start (task.advance source passed stage).1 →
      holds source stage → holds source (task.advance source passed stage).2) :
    ∃ steps : List (SourceModule × Outcome),
      (task.work workers events sources session start).2 = task.reportedAll start steps ∧
      steps.map Prod.fst <+: sources ∧
      (∀ step ∈ steps, holds step.1 (.finished step.2)) ∧
      ((∃ report, task.reportedAll start steps = .ok report) → steps.map Prod.fst = sources) := by
  obtain ⟨steps, haccounts⟩ := Pool.exists_accounts task sources session start (schedule workers events sources)
  have hbegun : ∀ job ∈ (Pool.start sources session start).jobs, holds job.source job.stage := by
    intro job hjob
    obtain ⟨source, hsource, rfl⟩ := List.mem_map.1 hjob
    exact hwaiting source hsource
  have hstages := Pool.foldl_stages hstep (schedule workers events sources)
    (fun front hfront => ⟨front, hfront, rfl⟩) hbegun
  have hcomplete := task.work_complete workers events sources session start
  rw [work_eq_foldl]
  generalize (schedule workers events sources).foldl (Pool.happen task) (Pool.start sources session start) =
    pool at haccounts hstages hcomplete
  refine ⟨steps, haccounts.report, ?_, ?_, ?_⟩
  · rw [haccounts.sources]
    exact List.take_prefix _ _
  · rintro ⟨source, outcome⟩ hstep
    obtain ⟨index, hindex⟩ := List.mem_iff_getElem?.1 hstep
    exact hstages _ (List.mem_of_getElem? (haccounts.finished index source outcome hindex))
  · rintro ⟨report, hreport⟩
    rcases hcomplete with hhalted | htaken
    · rw [Pool.isHalted, haccounts.report, hreport] at hhalted
      exact absurd hhalted (by simp)
    · rw [haccounts.sources, List.take_of_length_le htaken]

/-- What of a report the work on the modules does not touch. -/
theorem work_settings {workers : Int} {events : List Event} {session : Session} {report final : Report}
    (h : (task.work workers events sources session report).2 = .ok final) :
    final.indexPath = report.indexPath ∧ final.dryRun = report.dryRun := by
  obtain ⟨steps, hsteps⟩ := task.exists_reportedAll workers events sources session report
  rw [hsteps] at h
  obtain ⟨hindex, hdry, -, -⟩ := reportedAll_settings h
  exact ⟨hindex, hdry⟩

end Task

end FfiBindings.Generation
