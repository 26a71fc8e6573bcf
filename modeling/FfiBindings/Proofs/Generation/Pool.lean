import FfiBindings.Generation.Pool
import Mathlib.Tactic.Common

/-!
How the events of a pool go on. What one event preserves holds after any number of them (`foldl_happen`).
A run takes up all outcomes unless one of them halts it (`run_complete`), and working through the modules
one after the other is the run of a pool in which nothing interleaves (`workInOrder_eq_run`). So whatever
the number of workers, what one event preserves is known once the modules are worked on (`work_invariant`).
-/

set_option autoImplicit false
set_option relaxedAutoImplicit false

namespace FfiBindings.Generation

variable {task : Task}

namespace Stage

/-- How many steps are taken. -/
def rank : Stage → Nat
  | .waiting => 0
  | .prepared _ => 1
  | .laidOut _ => 2
  | .finished _ => 3

theorem eq_finished_of_rank {stage : Stage} (h : 3 ≤ stage.rank) :
    ∃ outcome, stage = .finished outcome := by
  cases stage with
  | finished outcome => exact ⟨outcome, rfl⟩
  | waiting => exact absurd h (by simp [rank])
  | prepared language => exact absurd h (by simp [rank])
  | laidOut layout => exact absurd h (by simp [rank])

end Stage

/-- Every step brings a module further until it is finished. -/
theorem Task.rank_advance (task : Task) (source : SourceModule) (session : Session) (stage : Stage) :
    min 3 (stage.rank + 1) ≤ (task.advance source session stage).2.rank := by
  cases stage with
  | waiting =>
    rw [Task.advance]
    rcases task.prepare source session with ⟨next, outcome | language⟩ <;> simp [Stage.rank]
  | prepared language =>
    rw [Task.advance]
    rcases task.read source language session with ⟨next, outcome | layout⟩ <;> simp [Stage.rank]
  | laidOut layout =>
    rw [Task.advance]
    rcases task.write source layout session with ⟨next, outcome⟩
    simp [Stage.rank]
  | finished outcome => simp [Task.advance, Stage.rank]

namespace Pool

variable {pool : Pool} {index : Nat}

/-! ### One event -/

/-- A step of a job that is there and may be taken. -/
theorem advance_eq {job : Job} (hjob : pool.jobs[index]? = some job)
    (hbegun : (job.stage.isWaiting && pool.isHalted) = false) :
    pool.advance task index =
      { pool with
        session := (task.advance job.source pool.session job.stage).1
        jobs := pool.jobs.set index
          { job with stage := (task.advance job.source pool.session job.stage).2 } } := by
  unfold advance
  simp only [hjob, hbegun, Bool.false_eq_true, if_false]

theorem advance_cases (task : Task) (pool : Pool) (index : Nat) :
    pool.advance task index = pool ∨
      ∃ job, pool.jobs[index]? = some job ∧ (job.stage.isWaiting && pool.isHalted) = false := by
  cases hjob : pool.jobs[index]? with
  | none => exact .inl (by simp only [advance, hjob])
  | some job =>
    cases hbegun : job.stage.isWaiting && pool.isHalted with
    | true => exact .inl (by simp only [advance, hjob, hbegun, if_true])
    | false => exact .inr ⟨job, rfl, hbegun⟩

theorem takeUp_eq {report : Report} {source : SourceModule} {outcome : Outcome}
    (hreport : pool.report = .ok report)
    (hjob : pool.jobs[pool.taken]? = some ⟨source, .finished outcome⟩) :
    pool.takeUp task =
      { pool with
        session := (task.takeUp source outcome pool.session report).1
        report := (task.takeUp source outcome pool.session report).2
        taken := pool.taken + 1 } := by
  unfold takeUp
  simp only [hreport, hjob]

theorem takeUp_cases (task : Task) (pool : Pool) :
    pool.takeUp task = pool ∨
      ∃ report source outcome, pool.report = .ok report ∧
        pool.jobs[pool.taken]? = some ⟨source, .finished outcome⟩ := by
  cases hreport : pool.report with
  | error halt => exact .inl (by simp only [takeUp, hreport])
  | ok report =>
    cases hjob : pool.jobs[pool.taken]? with
    | none => exact .inl (by simp only [takeUp, hreport, hjob])
    | some job =>
      obtain ⟨source, stage⟩ := job
      cases stage with
      | waiting => exact .inl (by simp only [takeUp, hreport, hjob])
      | prepared language => exact .inl (by simp only [takeUp, hreport, hjob])
      | laidOut layout => exact .inl (by simp only [takeUp, hreport, hjob])
      | finished outcome => exact .inr ⟨report, source, outcome, rfl, rfl⟩

/-! ### The jobs -/

section

variable {sources : List SourceModule} {place : Nat} {job other : Job}

theorem sources_start (sources : List SourceModule) (session : Session) (report : Report) :
    (Pool.start sources session report).jobs.map Job.source = sources := by
  simp [Pool.start, Function.comp_def]

/-- Before anything happens all jobs wait. -/
theorem exists_waiting {session : Session} {report : Report}
    (hjob : (Pool.start sources session report).jobs[index]? = some job) :
    ∃ source ∈ sources, job = ⟨source, .waiting⟩ := by
  simp only [Pool.start, List.getElem?_map, Option.map_eq_some_iff] at hjob
  obtain ⟨source, hsource, rfl⟩ := hjob
  exact ⟨source, List.mem_of_getElem? hsource, rfl⟩

theorem getElem?_source (hjobs : pool.jobs.map Job.source = sources) (hjob : pool.jobs[index]? = some job) :
    sources[index]? = some job.source := by
  rw [← hjobs, List.getElem?_map, hjob, Option.map_some]

theorem source_mem (hjobs : pool.jobs.map Job.source = sources) (hjob : pool.jobs[index]? = some job) :
    job.source ∈ sources :=
  List.mem_of_getElem? (getElem?_source hjobs hjob)

/-- Where no module is there twice, different jobs are of different modules. -/
theorem source_ne (hnodup : sources.Nodup) (hjobs : pool.jobs.map Job.source = sources)
    (hjob : pool.jobs[index]? = some job) (hother : pool.jobs[place]? = some other) (hne : index ≠ place) :
    job.source ≠ other.source := by
  intro hsame
  have hindex := getElem?_source hjobs hjob
  have hplace := getElem?_source hjobs hother
  rw [← hsame, ← hindex] at hplace
  exact hne ((List.getElem?_inj (List.getElem?_eq_some_iff.1 hindex).1 hnodup).1 hplace.symm)

/-- A job comes to another stage, but it stays with its module. -/
theorem map_source_set (hjobs : pool.jobs.map Job.source = sources) (hjob : pool.jobs[index]? = some job)
    (stage : Stage) : (pool.jobs.set index { job with stage := stage }).map Job.source = sources := by
  obtain ⟨hbound, hsame⟩ := List.getElem?_eq_some_iff.1 (getElem?_source hjobs hjob)
  rw [List.map_set, hjobs, ← hsame]
  exact List.set_getElem_self hbound

/-- The jobs once one of them has come to another stage: that one, and the others as they were. -/
theorem getElem?_set_cases (hjob : pool.jobs[index]? = some job) {stage : Stage}
    (hother : (pool.jobs.set index { job with stage := stage })[place]? = some other) :
    index = place ∧ other = { job with stage := stage } ∨ index ≠ place ∧ pool.jobs[place]? = some other := by
  by_cases hplace : index = place
  · subst hplace
    rw [List.getElem?_set_self (List.getElem?_eq_some_iff.1 hjob).1] at hother
    exact .inl ⟨rfl, (Option.some.inj hother).symm⟩
  · rw [List.getElem?_set_ne hplace] at hother
    exact .inr ⟨hplace, hother⟩

end

/-! ### Any number of events -/

/-- What every event preserves is preserved by any number of them. -/
theorem foldl_happen {holds : Pool → Prop}
    (hstep : ∀ pool event, holds pool → holds (pool.happen task event)) (events : List Event)
    (h : holds pool) : holds (events.foldl (happen task) pool) := by
  induction events generalizing pool with
  | nil => exact h
  | cons event events ih => exact ih (hstep pool event h)

/-- The job is there and that many of its steps are taken. -/
def HasRank (index rank : Nat) (pool : Pool) : Prop :=
  ∃ job, pool.jobs[index]? = some job ∧ rank ≤ job.stage.rank

/-- A job that is advanced gets further, unless it waits in a run that has halted. -/
theorem HasRank.advance (task : Task) {rank : Nat} (h : HasRank index rank pool)
    (hrunning : pool.isHalted = false) : HasRank index (min 3 (rank + 1)) (pool.advance task index) := by
  obtain ⟨job, hjob, hrank⟩ := h
  have hadvance := task.rank_advance job.source pool.session job.stage
  rw [advance_eq hjob (by rw [hrunning, Bool.and_false])]
  refine ⟨_, List.getElem?_set_self (List.getElem?_eq_some_iff.1 hjob).1, ?_⟩
  show min 3 (rank + 1) ≤ (task.advance job.source pool.session job.stage).2.rank
  omega

theorem isHalted_advance (task : Task) (pool : Pool) (index : Nat) :
    (pool.advance task index).isHalted = pool.isHalted := by
  rcases advance_cases task pool index with hsame | ⟨job, hjob, hbegun⟩
  · rw [hsame]
  · rw [advance_eq hjob hbegun]
    rfl

theorem taken_advance (task : Task) (pool : Pool) (index : Nat) :
    (pool.advance task index).taken = pool.taken := by
  rcases advance_cases task pool index with hsame | ⟨job, hjob, hbegun⟩
  · rw [hsame]
  · rw [advance_eq hjob hbegun]

theorem isHalted_happen (h : pool.isHalted = true) (event : Event) :
    (pool.happen task event).isHalted = true := by
  cases event with
  | advance index =>
    rw [happen, isHalted_advance]
    exact h
  | takeUp =>
    rw [happen]
    rcases takeUp_cases task pool with hsame | ⟨report, source, outcome, hreport, -⟩
    · rw [hsame]
      exact h
    · simp [isHalted, hreport] at h

theorem length_jobs_happen (pool : Pool) (event : Event) :
    (pool.happen task event).jobs.length = pool.jobs.length := by
  cases event with
  | advance index =>
    rw [happen]
    rcases advance_cases task pool index with hsame | ⟨job, hjob, hbegun⟩
    · rw [hsame]
    · rw [advance_eq hjob hbegun]
      exact List.length_set
  | takeUp =>
    rw [happen]
    rcases takeUp_cases task pool with hsame | ⟨report, source, outcome, hreport, hjob⟩
    · rw [hsame]
    · rw [takeUp_eq hreport hjob]

theorem taken_happen (task : Task) (pool : Pool) (event : Event) :
    pool.taken ≤ (pool.happen task event).taken := by
  cases event with
  | advance index => exact Nat.le_of_eq (taken_advance task pool index).symm
  | takeUp =>
    rw [happen]
    rcases takeUp_cases task pool with hsame | ⟨report, source, outcome, hreport, hjob⟩
    · exact Nat.le_of_eq (congrArg taken hsame).symm
    · rw [takeUp_eq hreport hjob]
      exact Nat.le_succ pool.taken

theorem foldl_isHalted (h : pool.isHalted = true) (events : List Event) :
    (events.foldl (happen task) pool).isHalted = true := by
  induction events generalizing pool with
  | nil => exact h
  | cons event events ih => exact ih (isHalted_happen h event)

theorem foldl_length_jobs (pool : Pool) (events : List Event) :
    (events.foldl (happen task) pool).jobs.length = pool.jobs.length := by
  induction events generalizing pool with
  | nil => rfl
  | cons event events ih => exact (ih (pool.happen task event)).trans (length_jobs_happen pool event)

/-! ### To the end of a run -/

/-- So many outcomes are taken up, or the run has halted before. -/
def TakenOrHalted (count : Nat) (pool : Pool) : Prop :=
  pool.isHalted = true ∨ count ≤ pool.taken

/-- The events of one job bring it to its taking up, if those before it are taken up. -/
theorem TakenOrHalted.jobEvents (h : TakenOrHalted index pool) (hindex : index < pool.jobs.length) :
    TakenOrHalted (index + 1) ((jobEvents index).foldl (happen task) pool) := by
  rcases h with hhalted | htaken
  · exact .inl (foldl_isHalted hhalted _)
  · by_cases hrunning : pool.isHalted = true
    · exact .inl (foldl_isHalted hrunning _)
    rw [Bool.not_eq_true] at hrunning
    have hthere : HasRank index 0 pool :=
      ⟨pool.jobs[index], List.getElem?_eq_getElem hindex, Nat.zero_le _⟩
    have hfirst := hthere.advance task hrunning
    have hrunning := (isHalted_advance task pool index).trans hrunning
    have hsecond := hfirst.advance task hrunning
    have hrunning := (isHalted_advance task _ index).trans hrunning
    have hthird := hsecond.advance task hrunning
    have hrunning := (isHalted_advance task _ index).trans hrunning
    have hsame : (((pool.advance task index).advance task index).advance task index).taken =
        pool.taken := by
      rw [taken_advance, taken_advance, taken_advance]
    show TakenOrHalted (index + 1)
      ((((pool.advance task index).advance task index).advance task index).takeUp task)
    generalize ((pool.advance task index).advance task index).advance task index = ready at *
    rcases Nat.lt_or_ge index pool.taken with hlater | hnext
    · have hmore := taken_happen task ready .takeUp
      exact .inr (by rw [happen] at hmore; omega)
    · obtain ⟨⟨source, stage⟩, hjob, hrank⟩ := hthird
      obtain ⟨outcome, rfl⟩ := Stage.eq_finished_of_rank (by simpa using hrank)
      have hindex : ready.taken = index := by omega
      rw [← hindex] at hjob
      cases hreport : ready.report with
      | error halt => simp [isHalted, hreport] at hrunning
      | ok report =>
        rw [takeUp_eq hreport hjob]
        exact .inr (Nat.succ_le_succ (Nat.le_of_eq hindex.symm))

/-- A run takes up the outcomes of all its modules, unless one of them halts it. -/
theorem run_complete (task : Task) (pool : Pool) (events : List Event) :
    TakenOrHalted pool.jobs.length (pool.run task events) := by
  have hall (count : Nat) (hcount : count ≤ pool.jobs.length) :
      TakenOrHalted count (((List.range count).flatMap jobEvents).foldl (happen task)
        (events.foldl (happen task) pool)) := by
    induction count with
    | zero => exact .inr (Nat.zero_le _)
    | succ count ih =>
      rw [List.range_succ, List.flatMap_append, List.foldl_append, List.flatMap_singleton]
      refine (ih (by omega)).jobEvents ?_
      rw [foldl_length_jobs, foldl_length_jobs]
      omega
  unfold run
  rw [List.foldl_append]
  exact hall pool.jobs.length (Nat.le_refl _)

/-! ### One after the other -/

/-- Nothing happens any more to a job that waits in a run that has halted. -/
theorem foldl_jobEvents_halted {job : Job} (hjob : pool.jobs[index]? = some job)
    (hwaiting : job.stage = .waiting) (hhalted : pool.isHalted = true) :
    (jobEvents index).foldl (happen task) pool = pool := by
  have hidle : pool.advance task index = pool := by
    have hwait : (job.stage.isWaiting && pool.isHalted) = true := by
      rw [hwaiting, hhalted]
      rfl
    simp only [advance, hjob, hwait, if_true]
  have hkept : pool.takeUp task = pool := by
    rcases takeUp_cases task pool with hsame | ⟨report, source, outcome, hreport, -⟩
    · exact hsame
    · simp [isHalted, hreport] at hhalted
  simp only [jobEvents, List.foldl_cons, List.foldl_nil, happen, hidle, hkept]

/-- Nothing happens any more when all the jobs that are left wait in a run that has halted. -/
theorem foldl_flatMap_jobEvents_halted (hhalted : pool.isHalted = true) (indices : List Nat)
    (hwaiting : ∀ index ∈ indices, ∃ source, pool.jobs[index]? = some ⟨source, .waiting⟩) :
    (indices.flatMap jobEvents).foldl (happen task) pool = pool := by
  induction indices with
  | nil => rfl
  | cons index indices ih =>
    obtain ⟨source, hjob⟩ := hwaiting index List.mem_cons_self
    rw [List.flatMap_cons, List.foldl_append, foldl_jobEvents_halted hjob rfl hhalted]
    exact ih fun other hother => hwaiting other (List.mem_cons_of_mem index hother)

/-- The job after those that are done, in a pool that runs. -/
theorem advance_next (task : Task) (session : Session) (done rest : List Job) (job : Job) (taken : Nat)
    (report : Report) :
    advance task done.length ⟨session, done ++ job :: rest, taken, .ok report⟩ =
      ⟨(task.advance job.source session job.stage).1,
        done ++ { job with stage := (task.advance job.source session job.stage).2 } :: rest, taken,
        .ok report⟩ := by
  have hjob : (done ++ job :: rest)[done.length]? = some job := by simp
  refine (advance_eq hjob (by rw [isHalted, Bool.and_false])).trans ?_
  simp

/-- The events of the next job finish it and take it up. -/
theorem foldl_jobEvents_next (task : Task) (session : Session) (done rest : List Job)
    (source : SourceModule) (report : Report) :
    (jobEvents done.length).foldl (happen task)
        ⟨session, done ++ ⟨source, .waiting⟩ :: rest, done.length, .ok report⟩ =
      ⟨(task.takeUp source (task.finish source session).2 (task.finish source session).1 report).1,
        done ++ ⟨source, .finished (task.finish source session).2⟩ :: rest, done.length + 1,
        (task.takeUp source (task.finish source session).2 (task.finish source session).1 report).2⟩ := by
  have hsteps := task.advance_advance_advance source session
  have hsession := congrArg Prod.fst hsteps
  have hstage := congrArg Prod.snd hsteps
  simp only [jobEvents, List.foldl_cons, List.foldl_nil, happen, advance_next]
  have hjob :
      (done ++ (⟨source, .finished (task.finish source session).2⟩ : Job) :: rest)[done.length]? =
        some ⟨source, .finished (task.finish source session).2⟩ := by simp
  rw [show (task.advance source (task.advance source (task.advance source session .waiting).1
      (task.advance source session .waiting).2).1 (task.advance source (task.advance source session
        .waiting).1 (task.advance source session .waiting).2).2).1 = _ from hsession,
    show (task.advance source (task.advance source (task.advance source session .waiting).1
      (task.advance source session .waiting).2).1 (task.advance source (task.advance source session
        .waiting).1 (task.advance source session .waiting).2).2).2 = _ from hstage]
  exact takeUp_eq rfl hjob

/-- The events of the jobs that are left, one job after the other. -/
theorem foldl_jobEvents_eq (task : Task) (session : Session) (done : List Job)
    (sources : List SourceModule) (report : Report) :
    let pool := ((List.range' done.length sources.length).flatMap jobEvents).foldl (happen task)
      ⟨session, done ++ sources.map fun source => ⟨source, .waiting⟩, done.length, .ok report⟩
    (pool.session, pool.report) = task.workInOrder sources session report := by
  induction sources generalizing session done report with
  | nil => rfl
  | cons source sources ih =>
    simp only [List.length_cons, List.range'_succ, List.flatMap_cons, List.foldl_append, List.map_cons]
    rw [foldl_jobEvents_next]
    simp only [Task.workInOrder]
    generalize task.finish source session = finished
    obtain ⟨session, outcome⟩ := finished
    simp only
    rcases task.takeUp source outcome session report with ⟨session, halt | report⟩
    · -- a run that has halted leaves the other modules waiting
      simp only
      rw [foldl_flatMap_jobEvents_halted rfl]
      intro index hindex
      obtain ⟨hlow, hhigh⟩ := List.mem_range'_1.1 hindex
      obtain ⟨offset, rfl⟩ := Nat.exists_eq_add_of_le hlow
      have hoffset : offset < sources.length := by omega
      refine ⟨sources[offset], ?_⟩
      rw [List.getElem?_append_right (by omega),
        show done.length + 1 + offset - done.length = offset + 1 by omega, List.getElem?_cons_succ,
        List.getElem?_map, List.getElem?_eq_getElem hoffset, Option.map_some]
    · simp only
      have hrest := ih session (done ++ [⟨source, .finished outcome⟩]) report
      simp only [List.length_append, List.length_singleton, List.append_assoc,
        List.singleton_append] at hrest
      exact hrest

end Pool

namespace Task

/-- Working through the modules in their order is what a pool does in which nothing else happens. -/
theorem workInOrder_eq_run (task : Task) (sources : List SourceModule) (session : Session)
    (report : Report) :
    task.workInOrder sources session report =
      (((Pool.start sources session report).run task []).session,
        ((Pool.start sources session report).run task []).report) := by
  have hrun := Pool.foldl_jobEvents_eq task session [] sources report
  simp only [List.length_nil, List.nil_append] at hrun
  rw [← hrun, Pool.run, Pool.start, List.nil_append, List.length_map, List.range_eq_range']

/-- All that happens while the modules are worked on, in its order: with several workers the events and what is done
in turns, and then the steps of the jobs that are left, one job after the other. -/
def schedule (workers : Int) (events : List Event) (sources : List SourceModule) : List Event :=
  (if workers ≤ 1 || sources.length ≤ 1 then [] else events ++ Pool.inTurns workers.toNat sources.length) ++
    (List.range sources.length).flatMap Pool.jobEvents

/-- However many workers there are, the work on the modules is what its schedule makes of a pool. -/
theorem work_eq_foldl (task : Task) (workers : Int) (events : List Event) (sources : List SourceModule)
    (session : Session) (report : Report) :
    task.work workers events sources session report =
      (((schedule workers events sources).foldl (Pool.happen task)
          (Pool.start sources session report)).session,
        ((schedule workers events sources).foldl (Pool.happen task)
          (Pool.start sources session report)).report) := by
  have hlength : (Pool.start sources session report).jobs.length = sources.length := List.length_map _
  unfold work schedule
  split
  · rw [workInOrder_eq_run, Pool.run, hlength]
  · simp only [Pool.run, hlength]

/-- The work on the modules takes up the outcomes of all of them, unless one of them halts it. -/
theorem work_complete (task : Task) (workers : Int) (events : List Event) (sources : List SourceModule)
    (session : Session) (report : Report) :
    Pool.TakenOrHalted sources.length
      ((schedule workers events sources).foldl (Pool.happen task) (Pool.start sources session report)) := by
  have hlength : (Pool.start sources session report).jobs.length = sources.length := List.length_map _
  have hcomplete := Pool.run_complete task (Pool.start sources session report)
    (if workers ≤ 1 || sources.length ≤ 1 then [] else events ++ Pool.inTurns workers.toNat sources.length)
  rwa [Pool.run, hlength] at hcomplete

/-- What every event preserves holds of the pool that the work on the modules ends with. -/
theorem work_invariant {holds : Pool → Prop}
    (hstep : ∀ pool event, holds pool → holds (pool.happen task event)) {sources : List SourceModule}
    {session : Session} {report : Report} (h : holds (Pool.start sources session report)) (workers : Int)
    (events : List Event) :
    ∃ pool, task.work workers events sources session report = (pool.session, pool.report) ∧ holds pool ∧
      pool.TakenOrHalted sources.length :=
  ⟨_, task.work_eq_foldl workers events sources session report, Pool.foldl_happen hstep _ h,
    task.work_complete workers events sources session report⟩

/-- The sessions that the work on the modules passes through. -/
def Passes (task : Task) (workers : Int) (events : List Event) (sources : List SourceModule)
    (session : Session) (report : Report) (passed : Session) : Prop :=
  ∃ front, front <+: schedule workers events sources ∧
    passed = (front.foldl (Pool.happen task) (Pool.start sources session report)).session

end Task

end FfiBindings.Generation
