import FfiBindings.CommandLine.Program
import FfiBindings.Proofs.Generation.Complete
import FfiBindings.Proofs.Generation.KnownText

/-!
What the exit status of a strict run stands for. A command line ends with zero only if the journal is set up, the run
begins, and its report tells no error (`generate_exit_zero`); then all of the work is done, as long as the log file is
neither a source nor the template and in the place of no binding that is written, and the template is where it was
(`run_strict_complete`). A log file in such a place is written to after the binding, one that is a source or the
template grows while it is waiting to be read, and a path of the template may lead elsewhere once a directory is made;
nothing of this is told (`strict_not_complete`).
-/

set_option autoImplicit false
set_option relaxedAutoImplicit false

namespace FfiBindings

theorem Report.status_eq_success_iff (report : Report) :
    report.status = .success ↔ report.aborted = false ∧ report.errors = [] := by
  unfold Report.status
  by_cases haborted : report.aborted = true
  · simp [haborted]
  · by_cases herrors : report.errors = []
    · simp [haborted, herrors]
    · simp [haborted, herrors]

namespace CommandLine

open Generation

variable {session opened : Session} {words : List String} {invocation : Invocation} {operand : String}
  {arguments : Arguments} {circumstances : Circumstances} {report : Report}

theorem generateComplaint?_eq_none_of_strict (h : generateComplaint? report true = none) :
    report.status = .success := by
  unfold generateComplaint? at h
  split at h
  · exact absurd h (by simp)
  · exact absurd h (by simp)
  · assumption

/-- A strict command ends with zero only if its run makes a report and the report tells no error. -/
theorem generate_exit_zero (hstrict : arguments.strict = true)
    (hexit : (generate session operand arguments circumstances).2.result = .ok 0) :
    ∃ report, (Generation.generate session (requestOf operand arguments) circumstances).2 = .ok report ∧
      report.aborted = false ∧ report.errors = [] := by
  unfold generate at hexit
  rcases hgenerate : Generation.generate session (requestOf operand arguments) circumstances with
    ⟨after, error | report⟩
  · simp only [hgenerate] at hexit
    split at hexit
    · exact absurd (Except.ok.inj hexit) (by decide)
    · exact absurd hexit nofun
  · simp only [hgenerate, hstrict] at hexit
    split at hexit
    · exact absurd (Except.ok.inj hexit) (by decide)
    · rename_i hnone
      exact ⟨report, rfl, report.status_eq_success_iff.1 (generateComplaint?_eq_none_of_strict hnone)⟩

/-- What is said on the console leaves the disk as it is. -/
theorem generate_disk (session : Session) (operand : String) (arguments : Arguments)
    (circumstances : Circumstances) :
    (generate session operand arguments circumstances).1.disk =
      (Generation.generate session (requestOf operand arguments) circumstances).1.disk := by
  unfold generate
  rcases Generation.generate session (requestOf operand arguments) circumstances with ⟨after, error | report⟩
  · dsimp only
    split
    · rfl
    · rfl
  · dsimp only
    split
    · rfl
    · rfl

/-- A command line that asks for a run carries it out as soon as the journal is set up. -/
theorem run_generate (hwords : Invocation.ofWords words = .ok invocation)
    (hcommand : invocation.command = .generate)
    (hconfigure : session.configure invocation.arguments.verbose
      (invocation.arguments.logFile.map Path.ofText) = (opened, none)) :
    run session words circumstances =
      generate opened invocation.operand invocation.arguments circumstances := by
  simp only [run, hwords, carryOut, hconfigure, hcommand]

/-- Such a command line ends with zero only if the journal is set up. -/
theorem configure_of_exit_zero (hwords : Invocation.ofWords words = .ok invocation)
    (hexit : (run session words circumstances).2.result = .ok 0) :
    ∃ opened, session.configure invocation.arguments.verbose
      (invocation.arguments.logFile.map Path.ofText) = (opened, none) := by
  simp only [run, hwords, carryOut] at hexit
  split at hexit
  · exact absurd hexit nofun
  · rename_i opened hconfigure
    exact ⟨opened, hconfigure⟩

/-- A strict success is complete. -/
theorem run_strict_complete (hproper : session.disk.tree.isProper = true) (hcurrent : session.disk.HasCurrent)
    (hwords : Invocation.ofWords words = .ok invocation) (hcommand : invocation.command = .generate)
    (hstrict : invocation.arguments.strict = true) (hwrites : invocation.arguments.dryRun = false)
    (hexit : (run session words circumstances).2.result = .ok 0) :
    ∃ opened config sources,
      session.configure invocation.arguments.verbose (invocation.arguments.logFile.map Path.ofText) =
        (opened, none) ∧
      Begins opened (requestOf invocation.operand invocation.arguments) config sources ∧
      (OwnPlaces config sources opened.disk → LogBeside config sources opened →
        (taskFor (requestOf invocation.operand invocation.arguments) circumstances config).IsComplete
          sources opened.disk (run session words circumstances).1.disk) := by
  obtain ⟨opened, hconfigure⟩ := configure_of_exit_zero hwords hexit
  have hplain : ∀ path, invocation.arguments.logFile.map Path.ofText = some path →
      ∀ part ∈ path.parts, Path.isPlainPart part = true := by
    intro path hpath part hpart
    obtain ⟨text, -, rfl⟩ := Option.map_eq_some_iff.1 hpath
    exact Path.isPlainPart_of_mem_ofText hpart
  obtain ⟨hproper, hcurrent, hlogging⟩ := Session.configure_spec hproper hcurrent hplain hconfigure
  rw [run_generate hwords hcommand hconfigure] at hexit ⊢
  obtain ⟨report, hrun, hdone, herrors⟩ := generate_exit_zero hstrict hexit
  obtain ⟨config, sources, hbegins⟩ := begins_of_generate_ok hrun
  refine ⟨opened, config, sources, hconfigure, hbegins, fun hplaces hlog => ?_⟩
  rw [generate_disk]
  exact generate_complete hproper hcurrent hlogging hbegins hwrites hplaces hlog hrun hdone herrors

namespace Sample

/-- The words of a strict run over the whole disk. -/
def strictWords (logFile : String) : List String :=
  ["generate", "/", "--platform", "linux", "--strict", "--log-file", logFile]

def strict (logFile : String) : Invocation where
  command := .generate
  operand := "/"
  arguments := { platform := some "linux", strict := true, logFile := some logFile }

def strictRequest : Request where
  path := ⟨.root, []⟩
  platform := some "linux"

/-- A session before its journal is set up. -/
def unopened (session : Session) : Session where
  disk := session.disk

def boundTree : Tree :=
  .directory "mod" (.file "a.ts" .empty 0o644 .empty)
    (.directory "rs" (.file "a.rs" Generation.Sample.sourceText.toUTF8 0o644 .empty) .empty)

/-- A library whose log file is in the place of its binding. -/
def bound : Session where
  disk := { tree := boundTree }
  journal := { level := .info, handlers := Journal.handlersFor .info (some ["mod", "a.ts"]) }

def growingTree : Tree :=
  .file "#[no_mangle] pub fn h() \x7b\x7d.rs" .empty 0o644
    (.file "b.rs" (Generation.Sample.sourceText ++ "\n").toUTF8 0o644 .empty)

/-- A library whose log file is the second one of two sources, of which the first one is named like a function. -/
def growing : Session where
  disk := { tree := .directory "rs" growingTree .empty }
  journal := { level := .info, handlers := Journal.handlersFor .info (some ["rs", "b.rs"]) }

def grown : SourceModule := ⟨⟨.root, ["rs", "b.rs"]⟩, []⟩

def growingSources : List SourceModule :=
  [⟨⟨.root, ["rs", "#[no_mangle] pub fn h() \x7b\x7d.rs"]⟩, []⟩, grown]

/-- What the log file holds when a run comes to it. -/
def grownText : String := "#[no_mangle] pub fn f() \x7b\x7d
 INFO bunbind.orchestrator: Starting generation run for /
 WARNING bunbind.orchestrator: rs/#[no_mangle] pub fn h() \x7b\x7d.rs: no exported functions found\n"

/-- A library whose log file is in the place of the template. -/
def recited : Session where
  disk := { tree := Generation.Sample.templateTree }
  journal := { level := .info, handlers := Journal.handlersFor .info (some ["tpl", "binding.ts.j2"]) }

def wanderingText : String := "templates_dir: missing/../tpl\noutput_dir: missing\n"

/-- A library whose template is found by way of the directory of the bindings. -/
def wandering : Session where
  disk :=
    { tree := .file ".bunbind.yml" wanderingText.toUTF8 0o644
        (.file "run.log" .empty 0o644
          (.directory "rs" (.file "a.rs" Generation.Sample.sourceText.toUTF8 0o644 .empty)
            (.directory "tpl" (.file "binding.ts.j2" .empty 0o644 .empty) .empty))) }
  journal := { level := .info, handlers := Journal.handlersFor .info (some ["run.log"]) }

def wanderingSettings : Config where
  root := ⟨.root, []⟩
  outputDirectory := "missing"
  templatesDirectory := some ⟨.root, ["missing", "..", "tpl"]⟩

theorem configure_watched :
    (unopened Generation.Sample.watched).configure false (some (Path.ofText "/run.log")) =
      (Generation.Sample.watched, none) := rfl

theorem configure_bound :
    (unopened bound).configure false (some (Path.ofText "/mod/a.ts")) = (bound, none) := rfl

theorem configure_growing :
    (unopened growing).configure false (some (Path.ofText "/rs/b.rs")) = (growing, none) := rfl

theorem configure_recited :
    (unopened recited).configure false (some (Path.ofText "/tpl/binding.ts.j2")) = (recited, none) := rfl

theorem configure_wandering :
    (unopened wandering).configure false (some (Path.ofText "/run.log")) = (wandering, none) := rfl

end Sample

/-- A strict run with a log file beside everything else. -/
theorem run_strict_complete_watched :
    (run (Sample.unopened Generation.Sample.watched) (Sample.strictWords "/run.log")).2.result = .ok 0 ∧
      OwnPlaces Generation.Sample.settings [Generation.Sample.exporting] Generation.Sample.watched.disk ∧
      LogBeside Generation.Sample.settings [Generation.Sample.exporting] Generation.Sample.watched ∧
      (taskFor Sample.strictRequest {} Generation.Sample.settings).IsComplete [Generation.Sample.exporting]
        Generation.Sample.watched.disk
        (run (Sample.unopened Generation.Sample.watched) (Sample.strictWords "/run.log")).1.disk := by
  have hwords : Invocation.ofWords (Sample.strictWords "/run.log") = .ok (Sample.strict "/run.log") := by
    decide +kernel
  have hwatched : Begins Generation.Sample.watched Sample.strictRequest Generation.Sample.settings
      [Generation.Sample.exporting] :=
    .of_met (by decide +kernel)
  have hexit : (run (Sample.unopened Generation.Sample.watched) (Sample.strictWords "/run.log")).2.result =
      .ok 0 := by
    rw [run_generate hwords rfl Sample.configure_watched]
    unfold generate
    rw [show requestOf _ _ = Sample.strictRequest from rfl, hwatched.generate_eq]
    decide +kernel
  have hplaces : OwnPlaces Generation.Sample.settings [Generation.Sample.exporting]
      Generation.Sample.watched.disk :=
    ⟨by decide +kernel, by decide +kernel, by decide +kernel, by decide +kernel, nofun⟩
  have hlog : LogBeside Generation.Sample.settings [Generation.Sample.exporting] Generation.Sample.watched :=
    ⟨by decide +kernel, by decide +kernel, nofun⟩
  obtain ⟨opened, config, sources, hconfigure, hbegins, hcomplete⟩ :=
    run_strict_complete (by decide +kernel) (Disk.hasCurrent_of_top rfl) hwords rfl rfl rfl hexit
  obtain rfl := (Prod.mk.inj (Sample.configure_watched.symm.trans hconfigure)).1
  obtain ⟨rfl, rfl⟩ := hwatched.unique hbegins
  exact ⟨hexit, hplaces, hlog, hcomplete hplaces hlog⟩

section unfinished

variable {task : Task} {sources : List SourceModule} {start after : Disk}

/-- A binding of another size than the functions of its source ask for is not the one that is laid out of them. -/
theorem not_isComplete_of_size (source : SourceModule) (hsource : source ∈ sources)
    (functions : List Rust.ExportedFunction) (hne : functions ≠ [])
    (hextracted : Language.extracted? task.languages start source.path = some functions)
    (hsize : (after.read (task.target source)).toOption.map ByteArray.size ≠
      (task.layOut source start functions).toOption.map fun layout => layout.content.toUTF8.size) :
    ¬ task.IsComplete sources start after := by
  intro hcomplete
  have hread := hcomplete.read_target hsource hextracted hne
  rw [hread, Option.map_map] at hsize
  exact hsize rfl

end unfinished

/-- A strict run with the log file ends with zero, and is not complete. -/
def EndsIncomplete (session : Session) (logFile : String) (config : Config) (sources : List SourceModule) : Prop :=
  Begins session Sample.strictRequest config sources ∧
    (run (Sample.unopened session) (Sample.strictWords logFile)).2.result = .ok 0 ∧
    ¬ (taskFor Sample.strictRequest {} config).IsComplete sources session.disk
      (run (Sample.unopened session) (Sample.strictWords logFile)).1.disk

namespace Sample

theorem bound_incomplete :
    EndsIncomplete bound "/mod/a.ts" Generation.Sample.settings [Generation.Sample.exporting] := by
  have hwords : Invocation.ofWords (strictWords "/mod/a.ts") = .ok (strict "/mod/a.ts") := by
    decide +kernel
  have hbegins : Begins bound strictRequest Generation.Sample.settings [Generation.Sample.exporting] :=
    .of_met (by decide +kernel)
  have hrun : run _ _ {} = _ := run_generate hwords rfl configure_bound
  unfold generate at hrun
  rw [show requestOf _ _ = strictRequest from rfl, hbegins.generate_eq] at hrun
  -- the run is evaluated once, for its exit status and for the size of the binding that it leaves
  refine ⟨hbegins, And.imp_right (not_isComplete_of_size Generation.Sample.exporting (by decide)
    [{ name := "f", line := 1 }] (by decide) (by decide +kernel)) ?_⟩
  rw [hrun]
  decide +kernel

theorem growing_incomplete :
    EndsIncomplete growing "/rs/b.rs" Generation.Sample.settings growingSources := by
  have hwords : Invocation.ofWords (strictWords "/rs/b.rs") = .ok (strict "/rs/b.rs") := by
    decide +kernel
  have hbegins : Begins growing strictRequest Generation.Sample.settings growingSources :=
    .of_met (by decide +kernel)
  have htext : Rust.Yields grownText
      [.exported { name := "f", line := 1 }, .exported { name := "h", line := 3 }] := by
    set_option maxRecDepth 2000 in refine ⟨_, rfl, ?_⟩
    decide +kernel
  have hrun : run _ _ {} = _ := run_generate hwords rfl configure_growing
  unfold generate at hrun
  -- the log file is the last module, so the run is evaluated up to it, and then from what it holds
  rw [show requestOf _ _ = strictRequest from rfl, hbegins.generate_eq, generateModules_eq,
    show growingSources = [_] ++ [_] from rfl,
    Task.work_append (by decide) _ htext (by decide +kernel)] at hrun
  refine ⟨hbegins, And.imp_right (not_isComplete_of_size grown (by decide)
    [{ name := "f", line := 1 }] (by decide) (by decide +kernel)) ?_⟩
  rw [hrun]
  decide +kernel

theorem recited_incomplete :
    EndsIncomplete recited "/tpl/binding.ts.j2" Generation.Sample.templateSettings
      [Generation.Sample.exporting] := by
  have hwords : Invocation.ofWords (strictWords "/tpl/binding.ts.j2") = .ok (strict "/tpl/binding.ts.j2") := by
    decide +kernel
  have hbegins : Begins recited strictRequest Generation.Sample.templateSettings [Generation.Sample.exporting] :=
    .of_met (by decide +kernel)
  have hrun : run _ _ {} = _ := run_generate hwords rfl configure_recited
  unfold generate at hrun
  rw [show requestOf _ _ = strictRequest from rfl, hbegins.generate_eq] at hrun
  refine ⟨hbegins, And.imp_right (not_isComplete_of_size Generation.Sample.exporting (by decide)
    [{ name := "f", line := 1 }] (by decide) (by decide +kernel)) ?_⟩
  rw [hrun]
  decide +kernel

theorem wandering_incomplete :
    EndsIncomplete wandering "/run.log" wanderingSettings [Generation.Sample.exporting] := by
  have hwords : Invocation.ofWords (strictWords "/run.log") = .ok (strict "/run.log") := by
    decide +kernel
  have hbegins : Begins wandering strictRequest wanderingSettings [Generation.Sample.exporting] :=
    .of_met (by decide +kernel)
  have hrun : run _ _ {} = _ := run_generate hwords rfl configure_wandering
  unfold generate at hrun
  rw [show requestOf _ _ = strictRequest from rfl, hbegins.generate_eq] at hrun
  refine ⟨hbegins, And.imp_right (not_isComplete_of_size Generation.Sample.exporting (by decide)
    [{ name := "f", line := 1 }] (by decide) (by decide +kernel)) ?_⟩
  rw [hrun]
  decide +kernel

end Sample

/-- Without the conditions on the log file and the template a strict success is not complete. Written to in the place
of a binding, a log file goes on after the text of the binding. As a source, it gets a function by what the journal
tells of the source before it, and that function is bound too. As the template, it gives a binding other text than it
held. And a template that is found only once the directory of the bindings is made is not the one of the start. -/
theorem strict_not_complete :
    (OwnPlaces Generation.Sample.settings [Generation.Sample.exporting] Sample.bound.disk ∧
      EndsIncomplete Sample.bound "/mod/a.ts" Generation.Sample.settings [Generation.Sample.exporting]) ∧
    (OwnPlaces Generation.Sample.settings Sample.growingSources Sample.growing.disk ∧
      EndsIncomplete Sample.growing "/rs/b.rs" Generation.Sample.settings Sample.growingSources) ∧
    (OwnPlaces Generation.Sample.templateSettings [Generation.Sample.exporting] Sample.recited.disk ∧
      EndsIncomplete Sample.recited "/tpl/binding.ts.j2" Generation.Sample.templateSettings
        [Generation.Sample.exporting]) ∧
    (LogBeside Sample.wanderingSettings [Generation.Sample.exporting] Sample.wandering ∧
      EndsIncomplete Sample.wandering "/run.log" Sample.wanderingSettings [Generation.Sample.exporting]) := by
  refine ⟨⟨?_, Sample.bound_incomplete⟩, ⟨?_, Sample.growing_incomplete⟩, ⟨?_, Sample.recited_incomplete⟩, ?_,
    Sample.wandering_incomplete⟩
  · exact ⟨by decide +kernel, by decide +kernel, by decide +kernel, by decide +kernel, nofun⟩
  · exact ⟨by decide +kernel, by decide +kernel, by decide +kernel, by decide +kernel, nofun⟩
  · refine ⟨by decide +kernel, by decide +kernel, by decide +kernel, by decide +kernel, ?_⟩
    rintro directory ⟨⟩
    exact .inl (by decide)
  · refine ⟨by decide +kernel, by decide +kernel, ?_⟩
    rintro directory ⟨⟩
    exact by decide +kernel

end CommandLine

end FfiBindings
