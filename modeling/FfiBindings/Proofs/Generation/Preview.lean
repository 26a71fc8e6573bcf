import FfiBindings.Proofs.Generation.KnownText
import FfiBindings.Proofs.Generation.Settled
import FfiBindings.Proofs.Generation.Unsupported

/-!
A dry run as a preview. It changes nothing but the log file (`generate_dry`), and where the files refuse the real
run nothing, it comes to the report of the real run (`generate_preview`). What a real run brings to the disk is
seen by no later step of it: the bindings, the directories above them and the journal are in the place of no source
and not of the index or the template. So every job of the real run goes through the stages that its module goes
through in a dry run by itself (`Foreseeable.foldl_happen`).
-/

set_option autoImplicit false
set_option relaxedAutoImplicit false

namespace FfiBindings

/-- The report of a dry run that comes to the same. -/
def Report.asPreview (report : Report) : Report :=
  { report with dryRun := true }

namespace Generation

open Disk

variable {task : Task} {source : SourceModule} {session other : Session} {stage : Stage} {pool : Pool}
  {start disk after : Disk} {log : List Location} {sources : List SourceModule} {report : Report}

/-- The end of a dry run that is halted in the same way. -/
def Halt.asPreview : Halt → Halt
  | .aborted report => .aborted report.asPreview
  | .stopped error => .stopped error

/-- The same work, as a dry run does it. -/
def Task.preview (task : Task) : Task :=
  { task with dryRun := true }

/-! ### What a dry run changes -/

namespace Task

/-- A step of a dry run changes the log file alone. -/
theorem advance_dry (hdry : task.dryRun = true) (source : SourceModule) (session : Session) (stage : Stage) :
    Session.OnlyLogged session.logLocations session.disk (task.advance source session stage).1.disk := by
  cases stage with
  | waiting =>
    rw [advance_waiting_eq, prepare_dry hdry]
    exact Changes.refl _ _ _
  | prepared language =>
    rw [advance_prepared_eq]
    exact task.read_onlyLogged source language session
  | laidOut layout =>
    rw [advance_laidOut_eq, write_dry hdry]
    exact Changes.refl _ _ _
  | finished outcome => exact Changes.refl _ _ _

theorem work_dry (hdry : task.dryRun = true) (workers : Int) (events : List Event) (sources : List SourceModule)
    (session : Session) (report : Report) :
    (task.work workers events sources session report).1.logLocations = session.logLocations ∧
      Session.OnlyLogged session.logLocations session.disk
        (task.work workers events sources session report).1.disk := by
  have hstart : (Pool.start sources session report).Keeps (fun _ _ => True)
      (Session.OnlyLogged session.logLocations session.disk) session.logLocations :=
    .start (fun _ _ => trivial) (Changes.refl _ _ _) report
  have hend := hstart.foldl_happen task (fun source passed stage hlog hdisk _ =>
      ⟨trivial, hdisk.trans (hlog ▸ advance_dry hdry source passed stage)⟩)
    (fun _ _ hdisk hlogged => hdisk.trans hlogged) (schedule workers events sources)
  rw [work_eq_foldl]
  exact ⟨hend.logged, hend.disk⟩

end Task

theorem conclude_dry (hdry : report.dryRun = true) (faults : Index.Faults) (session : Session) :
    Session.OnlyLogged session.logLocations session.disk (conclude faults session report).1.disk := by
  have hlogged := conclude_logged faults session report
  rwa [indexUpdate, hdry, Index.update_disk_of_dry] at hlogged

theorem generateModules_dry (hdry : task.dryRun = true) (workers : Int) (events : List Event)
    (sources : List SourceModule) (session : Session) :
    Session.OnlyLogged session.logLocations session.disk
      (generateModules task workers events sources session).1.disk := by
  obtain ⟨hhandlers, hworked⟩ := task.work_dry hdry workers events sources session task.firstReport
  rw [generateModules_eq]
  rcases hresult : task.work workers events sources session task.firstReport with ⟨worked, halt | final⟩
  · rw [hresult] at hworked
    cases halt <;> exact hworked
  · have hfinal := (Task.work_settings (congrArg Prod.snd hresult)).2
    rw [hresult] at hhandlers hworked
    have hconcluded := conclude_dry (hfinal.trans hdry) task.faults.index worked
    rw [hhandlers] at hconcluded
    exact hworked.trans hconcluded

/-- However a dry run ends, nothing on the disk has changed but what the log file holds. -/
theorem generate_dry {request : Request} (hdry : request.dryRun = true) (session : Session)
    (circumstances : Circumstances) :
    Session.OnlyLogged session.logLocations session.disk (generate session request circumstances).1.disk := by
  rcases begins_or_stops session request with ⟨config, sources, hbegins⟩ | ⟨told, error, hstops⟩
  · have hmodules := @generateModules_dry (taskFor request circumstances config) hdry
      (request.workers.getD config.workers) circumstances.events sources (begun session request sources)
    rw [begun_logLocations] at hmodules
    rw [hbegins.generate_eq]
    exact (begun_changes session request sources).trans hmodules
  · rw [hstops request rfl]
    exact session.noteAll_changes told.toList

/-! ### What the files refuse -/

namespace Task

/-- Whether the files refuse the next step: the directory of a binding cannot be made, or the binding cannot be
written, because the medium fails or because its text has no encoding. -/
def refuses (task : Task) (source : SourceModule) (session : Session) : Stage → Bool
  | .waiting =>
    !task.dryRun && task.supports source && (task.makeDirectory source session.disk).2.isSome
  | .laidOut layout =>
    !task.dryRun && ((task.writeContent source layout session.disk).2.isSome || layout.isHalved)
  | _ => false

theorem prepare_preview (hrefuses : task.refuses source session .waiting = false) (other : Session) :
    (task.prepare source session).2 = (task.preview.prepare source other).2 := by
  cases hlanguage : Language.choose? task.languages source.path with
  | none =>
    have hthere : Language.choose? task.preview.languages source.path = none := hlanguage
    simp only [prepare, hlanguage, hthere]
    rfl
  | some language =>
    have hthere : Language.choose? task.preview.languages source.path = some language := hlanguage
    have hdry : (task.preview.prepare source other).2 = .ok language := by
      simp only [prepare, hthere, show task.preview.dryRun = true from rfl, if_true]
    rw [hdry]
    by_cases hwrites : task.dryRun = true
    · simp only [prepare, hlanguage, hwrites, if_true]
    · rw [Bool.not_eq_true] at hwrites
      rw [refuses, hwrites, supports, hlanguage, makeDirectory_eq, Option.isSome_some, Bool.not_false,
        Bool.true_and, Bool.true_and, Option.isSome_eq_false_iff, Option.isNone_iff_eq_none] at hrefuses
      have hmade : (session.disk.makeDirectories (task.tried source)).2.or
          ((task.faults.directory source).map Prod.fst) = none := hrefuses
      rw [prepare_of_choose hwrites hlanguage, hmade]
      rfl

theorem read_preview (hread : task.readSource source other.disk = task.readSource source session.disk)
    (htemplate : ∀ messages,
      task.template (other.noteAll messages).disk = task.template (session.noteAll messages).disk)
    (language : Language) :
    (task.read source language session).2 = (task.preview.read source language other).2 := by
  have hthere : task.preview.readSource source other.disk = task.readSource source session.disk := hread
  unfold read
  rw [hthere]
  cases task.readSource source session.disk with
  | error error => rfl
  | ok bytes =>
    have hlayout : task.layOut source (other.noteAll (task.extract source language bytes).1).disk =
        task.layOut source (session.noteAll (task.extract source language bytes).1).disk :=
      funext (layOut_congr (htemplate _) source)
    show (task.extract source language bytes).2.bind _ =
      (task.extract source language bytes).2.bind
        (task.layOut source (other.noteAll (task.extract source language bytes).1).disk)
    rw [hlayout]

theorem write_preview {layout : Layout} (hrefuses : task.refuses source session (.laidOut layout) = false)
    (other : Session) :
    (task.write source layout session).2 = (task.preview.write source layout other).2 := by
  rw [@write_dry task.preview source rfl]
  by_cases hwrites : task.dryRun = true
  · rw [write_dry hwrites]
    rfl
  · rw [Bool.not_eq_true] at hwrites
    rw [refuses, hwrites, Bool.not_false, Bool.true_and, Bool.or_eq_false_iff, Option.isSome_eq_false_iff,
      Option.isNone_iff_eq_none] at hrefuses
    rw [write_eq hwrites, hrefuses.1, writing, hrefuses.2]
    rfl

/-- A step that is not refused comes to what a dry run of it comes to, where both read the same source and the same
template. -/
theorem advance_preview (hrefuses : task.refuses source session stage = false)
    (hread : task.readSource source other.disk = task.readSource source session.disk)
    (htemplate : ∀ messages,
      task.template (other.noteAll messages).disk = task.template (session.noteAll messages).disk) :
    (task.advance source session stage).2 = (task.preview.advance source other stage).2 := by
  cases stage with
  | waiting =>
    rw [advance_waiting_eq, advance_waiting_eq]
    exact congrArg afterPreparing (prepare_preview hrefuses other)
  | prepared language =>
    rw [advance_prepared_eq, advance_prepared_eq]
    exact congrArg afterReading (read_preview hread htemplate language)
  | laidOut layout =>
    rw [advance_laidOut_eq, advance_laidOut_eq]
    exact congrArg Stage.finished (write_preview hrefuses other)
  | finished outcome => rfl

end Task

namespace Pool

/-- Whether the files refuse what an event does. -/
def refuses (task : Task) (pool : Pool) : Event → Bool
  | .advance index => pool.jobs[index]?.any fun job =>
    !(job.stage.isWaiting && pool.isHalted) && task.refuses job.source pool.session job.stage
  | .takeUp => false

/-- Whether the files refuse what one of the events does, one after the other. -/
def refusesAmong (task : Task) : List Event → Pool → Bool
  | [], _ => false
  | event :: events, pool => pool.refuses task event || refusesAmong task events (pool.happen task event)

theorem refuses_advance {index : Nat} {job : Job} (hjob : pool.jobs[index]? = some job)
    (hbegun : (job.stage.isWaiting && pool.isHalted) = false) :
    pool.refuses task (.advance index) = task.refuses job.source pool.session job.stage := by
  rw [refuses, hjob, Option.any_some, hbegun, Bool.not_false, Bool.true_and]

/-- The files refuse a dry run nothing. -/
theorem refusesAmong_dry (hdry : task.dryRun = true) (events : List Event) (pool : Pool) :
    refusesAmong task events pool = false := by
  have hnone (source : SourceModule) (session : Session) (stage : Stage) :
      task.refuses source session stage = false := by
    cases stage <;> simp [Task.refuses, hdry]
  induction events generalizing pool with
  | nil => rfl
  | cons event events ih =>
    rw [refusesAmong, ih, Bool.or_false]
    cases event with
    | advance index => simp [refuses, hnone]
    | takeUp => rfl

end Pool

/-! ### What a real run brings to the disk -/

namespace Task

/-- The directories above the bindings. -/
def AboveBindings (task : Task) (start : Disk) (sources : List SourceModule) (location : Location) : Prop :=
  ∃ source ∈ sources, location <+: start.place (task.target source) ∧
    location ≠ start.place (task.target source)

/-- What the work on the modules may bring to a disk, whatever their sources hold. -/
abbrev Touches (task : Task) (start : Disk) (log : List Location) (sources : List SourceModule)
    (disk : Disk) : Prop :=
  Changes (task.BindingFiles start log sources start) (task.AboveBindings start sources) start disk

/-- No source is in the place of a binding or of the log file, nor is the template. -/
structure Foreseeable (task : Task) (start : Disk) (log : List Location) (sources : List SourceModule) : Prop
    where
  current : start.HasCurrent
  down : ∀ source ∈ sources, ".." ∉ (task.target source).parts
  found : ∀ source ∈ sources, ∃ content mode, start.find? source.path = some (.file content mode)
  unread : ∀ source ∈ sources, ∀ other ∈ sources, start.place source.path ≠ start.place (task.target other)
  template : task.TemplateFixed start
  logTemplate : ∀ location ∈ log, ¬ task.IsTemplate start location
  log : ∀ source ∈ sources, start.place source.path ∉ log

/-- What the journal writes is what the work may bring. -/
theorem touches_of_logged (h : task.Touches start log sources disk) (hlogged : Session.OnlyLogged log disk after) :
    task.Touches start log sources after :=
  hlogged.after_changes h fun _ hlog hthere => .inr ⟨hlog, hthere⟩

namespace Foreseeable

variable (h : task.Foreseeable start log sources)
include h

/-- A step brings the binding of its module, the directories above it, and the journal. -/
theorem touches_advance (hsource : source ∈ sources) (hsofar : task.Touches start log sources session.disk)
    (hlog : session.logLocations = log) (stage : Stage) :
    task.Touches start log sources (task.advance source session stage).1.disk := by
  have hstep := task.advance_changes source (hsofar.keeps.hasCurrent h.current) stage
  rw [hlog] at hstep
  refine Changes.trans hsofar (hstep.mono (fun location hfile => ?_) fun location hway => ?_)
  · rcases hfile with hplace | ⟨hthere, hfile⟩
    · exact .inl ⟨source, hsource, by rw [hplace, hsofar.keeps.place_eq]⟩
    · exact (hsofar.fileAt hfile).elim (fun hbefore => .inr ⟨hthere, hbefore⟩) id
  · have habove := stepDirectories_above (h.down source hsource) hway
    rw [hsofar.keeps.place_eq] at habove
    exact ⟨source, hsource, habove⟩

/-- A source is read as at the start. -/
theorem readSource_eq (hsource : source ∈ sources) (hsofar : task.Touches start log sources disk) :
    task.readSource source disk = task.readSource source start := by
  refine readSource_of_changes (h.found source hsource) hsofar ?_
  rintro (⟨other, hother, hplace⟩ | ⟨hlog, -⟩)
  · exact h.unread source hsource other hother hplace
  · exact h.log source hsource hlog

/-- The template is the same as at the start, also when the journal has gone on. -/
theorem template_eq (hsofar : task.Touches start log sources session.disk) (hlog : session.logLocations = log)
    (messages : List Message) : task.template (session.noteAll messages).disk = task.template start := by
  have hlogged := session.noteAll_changes messages
  rw [hlog] at hlogged
  refine h.template.template_eq h.current (touches_of_logged hsofar hlogged) fun location htemplate => ?_
  rintro (⟨other, -, hplace⟩ | ⟨hthere, -⟩)
  · exact target_ne_template htemplate other hplace
  · exact h.logTemplate location hthere htemplate

omit h in
/-- A dry run of a module by itself leaves the disk as it is. -/
theorem onlyLogged_previewed (task : Task) (source : SourceModule) (start : Disk) (n : Nat) :
    Session.OnlyLogged [] start (task.preview.diskAt source start n) := by
  induction n with
  | zero => exact Changes.refl _ _ _
  | succ n ih =>
    have hstep := @advance_dry task.preview rfl source (task.preview.aloneAt source start n).1
      (task.preview.aloneAt source start n).2
    rw [aloneAt_logLocations] at hstep
    exact ih.trans hstep

/-- A dry run of the module by itself reads its source as at the start. -/
theorem readSource_previewed (hsource : source ∈ sources) (n : Nat) :
    task.readSource source (task.preview.diskAt source start n) = task.readSource source start :=
  readSource_of_changes (h.found source hsource) (onlyLogged_previewed task source start n) (by simp)

/-- It has the template of the start too. -/
theorem template_previewed (source : SourceModule) (n : Nat) (messages : List Message) :
    task.template ((task.preview.aloneAt source start n).1.noteAll messages).disk = task.template start := by
  have hlogged := (task.preview.aloneAt source start n).1.noteAll_changes messages
  rw [aloneAt_logLocations] at hlogged
  have hidle := (onlyLogged_previewed task source start n).trans hlogged
  exact h.template.template_eq h.current hidle fun location _ => by simp

end Foreseeable

/-- Every job is at a stage of its module in a dry run by itself, and the disk is one that the work may leave. -/
abbrev PoolPreviewed (task : Task) (start : Disk) (log : List Location) (sources : List SourceModule)
    (pool : Pool) : Prop :=
  pool.Keeps (fun source stage => source ∈ sources ∧ ∃ n, stage = task.preview.stageAt source start n)
    (task.Touches start log sources) log

namespace Foreseeable

variable (h : task.Foreseeable start log sources)
include h

/-- The step: an event that the files do not refuse brings a job to the next stage of its dry run. -/
theorem happen (hpool : task.PoolPreviewed start log sources pool) {event : Event}
    (hrefuses : pool.refuses task event = false) :
    task.PoolPreviewed start log sources (pool.happen task event) := by
  refine Pool.Keeps.happen hpool event (fun index job hevent hjob hbegun => ?_)
    fun after hlogged => touches_of_logged hpool.disk hlogged
  subst hevent
  rw [Pool.refuses_advance hjob hbegun] at hrefuses
  obtain ⟨hsource, n, hstage⟩ := hpool.stages job (List.mem_of_getElem? hjob)
  refine ⟨⟨hsource, n + 1, ?_⟩, h.touches_advance hsource hpool.disk hpool.logged job.stage⟩
  have hread : task.readSource job.source (task.preview.diskAt job.source start n) =
      task.readSource job.source pool.session.disk :=
    (h.readSource_previewed hsource n).trans (h.readSource_eq hsource hpool.disk).symm
  have htemplate (messages : List Message) :=
    (h.template_previewed job.source n messages).trans (h.template_eq hpool.disk hpool.logged messages).symm
  rw [advance_preview hrefuses hread htemplate, hstage]
  rfl

/-- The run: where no event is refused, all jobs go through their dry runs. -/
theorem foldl_happen (events : List Event) (hpool : task.PoolPreviewed start log sources pool)
    (hrefuses : Pool.refusesAmong task events pool = false) :
    task.PoolPreviewed start log sources (events.foldl (Pool.happen task) pool) := by
  induction events generalizing pool with
  | nil => exact hpool
  | cons event events ih =>
    rw [Pool.refusesAmong, Bool.or_eq_false_iff] at hrefuses
    exact ih (h.happen hpool hrefuses.1) hrefuses.2

/-- Where the files refuse nothing, the report is made of the outcomes of dry runs of the modules by themselves. -/
theorem work_previewed (hbegin : task.Touches start log sources session.disk) (hlog : session.logLocations = log)
    (workers : Int) (events : List Event) (report : Report)
    (hrefuses : Pool.refusesAmong task (schedule workers events sources)
      (Pool.start sources session report) = false) :
    (task.work workers events sources session report).2 =
        task.reportedAll report (task.preview.aloneSteps start sources) ∧
      task.Touches start log sources (task.work workers events sources session report).1.disk := by
  subst hlog
  have hstart : task.PoolPreviewed start session.logLocations sources (Pool.start sources session report) :=
    .start (fun _ hsource => ⟨hsource, 0, rfl⟩) hbegin report
  have hend := h.foldl_happen (schedule workers events sources) hstart hrefuses
  obtain ⟨steps, haccounts⟩ := Pool.exists_accounts task sources session report (schedule workers events sources)
  have hcomplete := task.work_complete workers events sources session report
  rw [work_eq_foldl]
  refine ⟨haccounts.report_eq (fun source => (task.preview.alone source start).2)
    (fun job hjob outcome hfinished => ?_) hcomplete, hend.disk⟩
  obtain ⟨-, n, hstage⟩ := hend.stages job hjob
  exact eq_alone_of_stageAt (hstage.symm.trans hfinished)

end Foreseeable

end Task

/-! ### The report -/

namespace Task

theorem reported_asPreview (task : Task) (report : Report) (step : SourceModule × Outcome) :
    task.reported report.asPreview step =
      ((task.reported report step).map Report.asPreview).mapError Halt.asPreview := by
  obtain ⟨source, outcome⟩ := step
  cases outcome <;> rfl

/-- The outcomes make of the report of a dry run what they make of the other. -/
theorem reportedAll_asPreview (task : Task) (report : Report) (steps : List (SourceModule × Outcome)) :
    task.reportedAll report.asPreview steps =
      ((task.reportedAll report steps).map Report.asPreview).mapError Halt.asPreview := by
  induction steps generalizing report with
  | nil => rfl
  | cons step steps ih =>
    unfold reportedAll at ih ⊢
    rw [List.foldlM_cons, List.foldlM_cons, reported_asPreview]
    cases task.reported report step with
    | error halt => rfl
    | ok next => exact ih next

end Task

theorem indexReport_asPreview (report : Report) (result : Except Index.UpdateError Index.Update) :
    indexReport report.asPreview result = (indexReport report result).map Report.asPreview := by
  rcases result with (error | fault) | update
  · cases error <;> rfl
  · rfl
  · rfl

/-! ### The run -/

namespace Task

/-- What is at a path beside the bindings is read as at the start. -/
theorem Touches.read_eq {path : Path} (h : task.Touches start log sources disk) (hcurrent : start.HasCurrent)
    (hdown : ".." ∉ path.parts)
    (hbeside : ∀ source ∈ sources, Apart (start.place (task.target source)) (start.place path))
    (hlog : start.place path ∉ log) : disk.read path = start.read path := by
  have hway : SameWay start disk path := by
    refine ⟨h.keeps, fun above habove => ?_⟩
    rcases h.sight above with hsame | ⟨hnone, hnew, -⟩ | ⟨⟨source, hsource, hplace⟩ | ⟨-, hthere⟩, -, hnew⟩
    · exact Tree.fileAt_congr hsame
    · exact iff_of_false (fun hfile => hfile.ne_directory hnew) fun hfile => hfile.ne_none hnone
    · exact absurd (hplace ▸ habove) (hbeside source hsource).1
    · exact iff_of_true hnew hthere
  refine hway.read_eq hdown hcurrent (h.sight?_eq ?_ ?_)
  · rintro (⟨source, hsource, hplace⟩ | ⟨hthere, -⟩)
    · exact (hbeside source hsource).1 (hplace ▸ List.prefix_refl _)
    · exact hlog hthere
  · rintro ⟨source, hsource, habove, -⟩
    exact (hbeside source hsource).2 habove

end Task

section generate

variable {request : Request} {circumstances : Circumstances} {config : Config}

/-- Whether the files refuse a run to make a directory, to write a binding or to replace the index. -/
def refusesRun (session : Session) (request : Request) (circumstances : Circumstances) (config : Config)
    (sources : List SourceModule) : Bool :=
  let task := taskFor request circumstances config
  let events := Task.schedule (request.workers.getD config.workers) circumstances.events sources
  Pool.refusesAmong task events (Pool.start sources (begun session request sources) task.firstReport) ||
    match worked session request circumstances config sources with
    | (after, .ok made) => Index.refuses after.disk made.indexPath (made.entries.map IndexEntry.importPath)
        circumstances.faults.index
    | (_, .error _) => false

/-- When a run can be previewed: no path of the settings leads out of a directory again, the index is beside the
bindings, and the log file is neither the index nor the template nor a source. -/
structure Previewable (session : Session) (config : Config) (sources : List SourceModule) : Prop where
  current : session.disk.HasCurrent
  proper : session.disk.tree.isProper = true
  sourceDirectory : ".." ∉ (Path.ofText config.sourceDirectory).parts
  outputDirectory : ".." ∉ (Path.ofText config.outputDirectory).parts
  indexFile : ".." ∉ (Path.ofText config.indexFile).parts
  templatesDirectory : ∀ directory, config.templatesDirectory = some directory → ".." ∉ directory.parts
  beside : ∀ source ∈ sources, Apart (session.disk.place (source.bindingPath config.outputRoot))
    (session.disk.place config.indexPath)
  logIndex : session.disk.place config.indexPath ∉ session.logLocations
  logSource : ∀ source ∈ sources, session.disk.place source.path ∉ session.logLocations
  logTemplate : ∀ directory, config.templatesDirectory = some directory →
    session.disk.place (directory.child Template.fileName) ∉ session.logLocations

theorem Previewable.foreseeable (h : Previewable session config sources)
    (hbegins : Begins session request config sources) (circumstances : Circumstances) :
    (taskFor request circumstances config).Foreseeable session.disk session.logLocations
      sources := by
  have hnamed := Tree.isNamed_of_isProper h.proper
  have houtput : ".." ∉ config.outputRoot.parts :=
    Path.notMem_joinText (hbegins.root_down hnamed h.current) h.outputDirectory
  refine ⟨h.current, fun source hsource => (bindingPath_down hnamed hbegins.scan hsource houtput).1,
    fun source hsource => scan_find? h.proper h.current hbegins.scan hsource,
    fun source hsource other _ => place_path_ne hnamed hbegins.scan hsource other config.outputRoot,
    .of_down h.templatesDirectory _, ?_, h.logSource⟩
  rintro location hlog ⟨directory, hdirectory, rfl⟩
  exact h.logTemplate directory hdirectory hlog

/-- The work on the modules of a run that the files refuse nothing comes to what it comes to in a dry run. -/
theorem Previewable.worked_preview (h : Previewable session config sources)
    (hbegins : Begins session request config sources)
    (hrefuses : refusesRun session request circumstances config sources = false) (workers : Option Int)
    (events : List Event) :
    let task := taskFor request circumstances config
    let real := worked session request circumstances config sources
    let dry := worked session { request with dryRun := true, workers } { circumstances with events } config sources
    dry.2 = (real.2.map Report.asPreview).mapError Halt.asPreview ∧
      task.Touches session.disk session.logLocations sources real.1.disk ∧
      task.Touches session.disk session.logLocations sources dry.1.disk := by
  intro task real dry
  have hforeseeable := h.foreseeable hbegins circumstances
  have hpreview : task.preview.Foreseeable session.disk session.logLocations sources :=
    ⟨hforeseeable.current, hforeseeable.down, hforeseeable.found, hforeseeable.unread,
      hforeseeable.template, hforeseeable.logTemplate, hforeseeable.log⟩
  have hbegun : task.Touches session.disk session.logLocations sources (begun session request sources).disk :=
    Task.touches_of_logged (Changes.refl _ _ _) (begun_changes session request sources)
  have hlog := begun_logLocations session request sources
  rw [refusesRun, Bool.or_eq_false_iff] at hrefuses
  obtain ⟨hreal, hrealDisk⟩ := hforeseeable.work_previewed hbegun hlog (request.workers.getD config.workers)
    circumstances.events task.firstReport hrefuses.1
  obtain ⟨hdry, hdryDisk⟩ := hpreview.work_previewed hbegun hlog (workers.getD config.workers) events
    task.firstReport.asPreview (Pool.refusesAmong_dry rfl _ _)
  refine ⟨?_, hrealDisk, hdryDisk⟩
  rw [show real.2 = _ from hreal]
  exact hdry.trans (task.reportedAll_asPreview task.firstReport (task.preview.aloneSteps session.disk sources))

/-- A dry run is a preview. However many workers there are and however their steps interleave, it changes nothing on
the disk but what the log file holds; and where the files refuse the real run nothing, the dry run comes to the same
report, or stops on the same error. -/
theorem generate_preview (session : Session) (request : Request) (circumstances : Circumstances) :
    (request.dryRun = true →
      Session.OnlyLogged session.logLocations session.disk (generate session request circumstances).1.disk) ∧
    (request.dryRun = false → ∀ config sources, Begins session request config sources →
      Previewable session config sources → refusesRun session request circumstances config sources = false →
      ∀ workers events,
        (generate session { request with dryRun := true, workers } { circumstances with events }).2 =
          (generate session request circumstances).2.map Report.asPreview) := by
  refine ⟨fun hdry => generate_dry hdry session circumstances,
    fun hwrites config sources hbegins hpreviewable hrefuses workers events => ?_⟩
  obtain ⟨hresult, hreal, hdry⟩ := hpreviewable.worked_preview hbegins hrefuses workers events
  have hbeginsDry : Begins session { request with dryRun := true, workers } config sources :=
    ⟨hbegins.noNull, hbegins.load, hbegins.scan⟩
  rw [refusesRun, Bool.or_eq_false_iff] at hrefuses
  replace hrefuses := hrefuses.2
  have hnamed := Tree.isNamed_of_isProper hpreviewable.proper
  have hindexDown : ".." ∉ config.indexPath.parts :=
    Path.notMem_joinText (hbegins.root_down hnamed hpreviewable.current) hpreviewable.indexFile
  have hread := (hdry.read_eq hpreviewable.current hindexDown hpreviewable.beside hpreviewable.logIndex).trans
    (hreal.read_eq hpreviewable.current hindexDown hpreviewable.beside hpreviewable.logIndex).symm
  rw [hbegins.generate_snd, hbeginsDry.generate_snd, hresult]
  rcases hworked : worked session request circumstances config sources with ⟨after, halt | made⟩
  · cases halt <;> rfl
  · rw [hworked] at hrefuses hread
    obtain ⟨hindex, hmade⟩ := Task.work_settings (congrArg Prod.snd hworked)
    have hmade : made.dryRun = false := hmade.trans hwrites
    have hindex : made.indexPath = config.indexPath := hindex
    have htext : Index.readText (worked session { request with dryRun := true, workers }
          { circumstances with events } config sources).1.disk made.indexPath circumstances.faults.index =
        Index.readText after.disk made.indexPath circumstances.faults.index := by
      unfold Index.readText
      rw [hindex, hread]
    have hupdate := Index.update_preview htext hrefuses
    rw [← hmade] at hupdate
    show indexReport made.asPreview (indexUpdate circumstances.faults.index _ made.asPreview).2 =
      (indexReport made (indexUpdate circumstances.faults.index after.disk made).2).map Report.asPreview
    rw [indexReport_asPreview]
    exact congrArg (fun result => (indexReport made result).map Report.asPreview) hupdate

namespace Sample

def listenedTree : Tree :=
  .file "#[no_mangle] pub fn h() \x7b\x7d.rs" sourceText.toUTF8 0o644 (.file "b.rs" .empty 0o644 .empty)

/-- A library of two sources, of which the first one is named like a function and the other is the log file. -/
def listened : Session where
  disk := { tree := .directory "rs" listenedTree .empty }
  journal := { level := .debug, handlers := Journal.handlersFor .debug (some ["rs", "b.rs"]) }

def listening : List SourceModule :=
  [⟨⟨.root, ["rs", "#[no_mangle] pub fn h() \x7b\x7d.rs"]⟩, []⟩, ⟨⟨.root, ["rs", "b.rs"]⟩, []⟩]

def recountedTree : Tree :=
  .file "a\x7b\x7bx\x7d\x7d.rs" sourceText.toUTF8 0o644 (.file "b.rs" sourceText.toUTF8 0o644 .empty)

/-- A library of two sources, of which the first one is named like a place in a template, and the log file is in the
place of the template. -/
def recounted : Session where
  disk :=
    { tree := .file ".bunbind.yml" "templates_dir: tpl\n".toUTF8 0o644
        (.directory "rs" recountedTree
          (.directory "tpl" (.file "binding.ts.j2" .empty 0o644 .empty) .empty)) }
  journal := { level := .debug, handlers := Journal.handlersFor .debug (some ["tpl", "binding.ts.j2"]) }

def recounting : List SourceModule :=
  [⟨⟨.root, ["rs", "a\x7b\x7bx\x7d\x7d.rs"]⟩, []⟩, ⟨⟨.root, ["rs", "b.rs"]⟩, []⟩]

def dryRequest : Request where
  path := ⟨.root, []⟩
  dryRun := true

/-- What a run has told when it comes to the log file. -/
def listenedText : String := " INFO bunbind.orchestrator: Starting generation run for /
 DEBUG bunbind.orchestrator: Discovered 2 source modules
 DEBUG bunbind.orchestrator: Wrote /mod/#[no_mangle] pub fn h() \x7b\x7d.ts (1 functions)\n"

/-- What a dry run has told then. -/
def dryText : String := " INFO bunbind.orchestrator: Starting generation run for /
 DEBUG bunbind.orchestrator: Discovered 2 source modules\n"

end Sample

/-- A dry run with two workers, of which the second one is ahead of the first, previews a run with one. -/
theorem generate_preview_library :
    Session.OnlyLogged [] Sample.library.disk (generate Sample.library Sample.dryRequest {}).1.disk ∧
      refusesRun Sample.library Sample.request {} Sample.settings [Sample.exporting, Sample.noText] = false ∧
      (generate Sample.library { Sample.request with dryRun := true, workers := some 2 }
          { events := [.advance 1, .advance 0, .advance 1, .takeUp, .advance 0] }).2 =
        (generate Sample.library Sample.request {}).2.map Report.asPreview := by
  have hpreviewable : Previewable Sample.library Sample.settings [Sample.exporting, Sample.noText] :=
    ⟨hasCurrent_of_top rfl, by decide +kernel, by decide +kernel, by decide +kernel, by decide +kernel,
      nofun, by decide +kernel, nofun, fun _ _ => nofun, nofun⟩
  have hrefuses : refusesRun Sample.library Sample.request {} Sample.settings
      [Sample.exporting, Sample.noText] = false := by
    decide +kernel
  exact ⟨(generate_preview Sample.library Sample.dryRequest {}).1 rfl, hrefuses,
    (generate_preview Sample.library Sample.request {}).2 rfl _ _ Sample.begins_library hpreviewable hrefuses
      (some 2) [.advance 1, .advance 0, .advance 1, .takeUp, .advance 0]⟩

/-- A dry run writes to a log file. Where the log file is a source, the real run, which has more to tell, finds a
function in it that the dry run does not, though it meets no error; and where the log file is the template, the real
run has told of the first binding when it comes to the second one, and that does not render. -/
theorem not_preview_without_conditions :
    (Sample.dryRequest.dryRun = true ∧
      (generate Sample.watched Sample.dryRequest {}).1.disk.tree.sight? ["run.log"] ≠
        Sample.watched.disk.tree.sight? ["run.log"]) ∧
    ((generate Sample.listened Sample.dryRequest {}).2.map (fun report => report.entries.length) = .ok 1 ∧
      (generate Sample.listened Sample.request {}).2.map (fun report => (report.entries.length, report.errors)) =
        .ok (2, [])) ∧
    ((generate Sample.recounted Sample.dryRequest {}).2.map (fun report => (report.entries.length, report.errors)) =
        .ok (2, []) ∧
      (generate Sample.recounted Sample.request {}).2 = .error (.template (.undefined (.variable "x")))) := by
  have hwatched : Begins Sample.watched Sample.dryRequest Sample.settings [Sample.exporting] :=
    .of_met (by decide +kernel)
  have hdry : Begins Sample.listened Sample.dryRequest Sample.settings Sample.listening :=
    .of_met (by decide +kernel)
  have hreal : Begins Sample.listened Sample.request Sample.settings Sample.listening :=
    ⟨hdry.noNull, hdry.load, hdry.scan⟩
  have hrecounted : Begins Sample.recounted Sample.dryRequest Sample.templateSettings Sample.recounting :=
    .of_met (by decide +kernel)
  have hrecountedReal : Begins Sample.recounted Sample.request Sample.templateSettings Sample.recounting :=
    ⟨hrecounted.noNull, hrecounted.load, hrecounted.scan⟩
  -- the log file is the last module, so each run is evaluated up to it, and then from what it holds
  have hdryText : Rust.Yields Sample.dryText [] := by
    set_option maxRecDepth 2000 in refine ⟨_, rfl, ?_⟩
    decide +kernel
  have hrealText : Rust.Yields Sample.listenedText [.exported { name := "h", line := 3 }] := by
    set_option maxRecDepth 2000 in refine ⟨_, rfl, ?_⟩
    decide +kernel
  refine ⟨⟨rfl, ?_⟩, ⟨?_, ?_⟩, ?_, ?_⟩
  · rw [hwatched.generate_eq]
    decide +kernel
  · rw [hdry.generate_snd, worked_eq, show Sample.listening = [_] ++ [_] from rfl,
      Task.work_append (by decide) _ hdryText (by decide +kernel)]
    decide +kernel
  · rw [hreal.generate_snd, worked_eq, show Sample.listening = [_] ++ [_] from rfl,
      Task.work_append (by decide) _ hrealText (by decide +kernel)]
    decide +kernel
  · rw [hrecounted.generate_snd]
    decide +kernel
  · rw [hrecountedReal.generate_snd]
    decide +kernel

end generate

end Generation

end FfiBindings
