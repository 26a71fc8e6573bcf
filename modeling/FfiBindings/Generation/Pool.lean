import FfiBindings.Generation.Task

/-!
Working through the modules of a run, one after the other or several at a time. Outcomes are taken up in
the order of the modules, however the steps of different modules interleave; the first outcome that ends
the run keeps modules that are still waiting from being begun, and those that are begun are finished.
-/

set_option autoImplicit false
set_option relaxedAutoImplicit false

namespace FfiBindings.Generation

/-- How a run ends before all its modules are taken up. -/
inductive Halt where
  | aborted (report : Report)
  | stopped (error : RunError)
  deriving DecidableEq, Repr

namespace Task

variable (task : Task)

/-- Takes an outcome up into the report and the journal. -/
def takeUp (source : SourceModule) (outcome : Outcome) (session : Session) (report : Report) :
    Session × Except Halt Report :=
  match outcome with
  | .bound entry written =>
    (session, .ok { report with
      entries := report.entries ++ [entry], written := report.written ++ [written] })
  | .noted diagnostic =>
    (session.note (diagnostic.logMessage journalName),
      .ok { report with diagnostics := report.diagnostics ++ [diagnostic] })
  | .unsupported error =>
    let path := displayed source.path task.config.root
    let diagnostic : Diagnostic := ⟨.error, path, error.message⟩
    (session.note ⟨.error, journalName, s!"Aborting run: {error.message}"⟩,
      .error (.aborted { report with
        diagnostics := report.diagnostics ++ [diagnostic], aborted := true }))
  | .stopped error => (session, .error (.stopped error))

/-- Works through the modules one after the other. -/
def workInOrder : (sources : List SourceModule) → (session : Session) → (report : Report) →
    Session × Except Halt Report
  | [], session, report => (session, .ok report)
  | source :: rest, session, report =>
    let (session, outcome) := task.finish source session
    match task.takeUp source outcome session report with
    | (session, .error halt) => (session, .error halt)
    | (session, .ok report) => workInOrder rest session report

end Task

structure Job where
  source : SourceModule
  stage : Stage

/-- Jobs in the order of their modules, of which the first `taken` are taken up. -/
structure Pool where
  session : Session
  jobs : List Job
  taken : Nat
  report : Except Halt Report

/-- What may happen next in a pool. -/
inductive Event where
  /-- A job takes its next step. -/
  | advance (index : Nat)
  /-- The next outcome is taken up, if it is there. -/
  | takeUp
  deriving DecidableEq, Repr

namespace Pool

def start (sources : List SourceModule) (session : Session) (report : Report) : Pool where
  session
  jobs := sources.map fun source => ⟨source, .waiting⟩
  taken := 0
  report := .ok report

def isHalted (pool : Pool) : Bool :=
  match pool.report with
  | .ok _ => false
  | .error _ => true

variable (task : Task)

/-- The next step of a job; a run that has halted begins no further ones. -/
def advance (index : Nat) (pool : Pool) : Pool :=
  match pool.jobs[index]? with
  | none => pool
  | some job =>
    if job.stage.isWaiting && pool.isHalted then pool
    else
      let (session, stage) := task.advance job.source pool.session job.stage
      { pool with session, jobs := pool.jobs.set index { job with stage } }

def takeUp (pool : Pool) : Pool :=
  match pool.report, pool.jobs[pool.taken]? with
  | .ok report, some ⟨source, .finished outcome⟩ =>
    let (session, report) := task.takeUp source outcome pool.session report
    { pool with session, report, taken := pool.taken + 1 }
  | _, _ => pool

def happen (pool : Pool) : Event → Pool
  | .advance index => pool.advance task index
  | .takeUp => pool.takeUp task

/-- The steps of a job from its beginning to its taking up. -/
def jobEvents (index : Nat) : List Event :=
  [.advance index, .advance index, .advance index, .takeUp]

/-- Lets all jobs finish, after the events that come first. -/
def run (pool : Pool) (events : List Event) : Pool :=
  (events ++ (List.range pool.jobs.length).flatMap jobEvents).foldl (happen task) pool

/-- As many jobs as there are workers take their steps in turns, and then their outcomes are taken up; after
them come as many again. -/
def inTurns (workers count : Nat) : List Event :=
  (List.range count).flatMap fun batch =>
    let indices := ((List.range count).drop (batch * workers)).take workers
    let round := indices.map Event.advance
    round ++ round ++ round ++ indices.map fun _ => .takeUp

end Pool

namespace Task

/-- Works through the modules with that many workers. The events decide how the steps of several workers
interleave; what they leave to be done is done in turns. -/
def work (task : Task) (workers : Int) (events : List Event) (sources : List SourceModule)
    (session : Session) (report : Report) : Session × Except Halt Report :=
  if workers ≤ 1 || sources.length ≤ 1 then task.workInOrder sources session report
  else
    let pool := (Pool.start sources session report).run task
      (events ++ Pool.inTurns workers.toNat sources.length)
    (pool.session, pool.report)

end Task

end FfiBindings.Generation
