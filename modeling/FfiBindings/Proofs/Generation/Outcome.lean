import FfiBindings.Proofs.Generation.Module
import FfiBindings.Proofs.Generation.Frame
import FfiBindings.Proofs.Generation.Reported

/-!
How the work on a module can end. Each way out of it has its cause on a session that the run passed through,
and the words of its diagnostic (`Ends`). Every step of a module keeps what is known of the steps before it
(`Reached.advance`), so each outcome that a run reports is one of these (`work_ends`), however the steps of
different modules interleave.
-/

set_option autoImplicit false
set_option relaxedAutoImplicit false

namespace FfiBindings.Generation.Task

variable (task : Task) (passed : Session → Prop) (source : SourceModule)

/-- The directory of the binding was made, if the run writes. -/
def Made : Prop :=
  task.dryRun = false → ∃ session, passed session ∧ (task.makeDirectory source session.disk).2 = none

/-- The source was read, and holds these functions. -/
def Exported (functions : List Rust.ExportedFunction) : Prop :=
  ∃ session language bytes, passed session ∧ Language.choose? task.languages source.path = some language ∧
    task.readSource source session.disk = .ok bytes ∧ language.functionsIn? bytes = some functions

/-- The functions were laid out, with the template that was there at the time. -/
def Rendered (functions : List Rust.ExportedFunction) (layout : Layout) : Prop :=
  ∃ session, passed session ∧ task.layOut source session.disk functions = .ok layout

/-- How the work on a module ends, and why. -/
inductive Ends : Outcome → Prop where
  | noLanguage (hlanguage : Language.choose? task.languages source.path = none) :
    Ends (task.note source .warning "no extractor supports this file type")
  | notMade (session : Session) (error : FileError) (hpassed : passed session) (hwrites : task.dryRun = false)
    (hmade : (task.makeDirectory source session.disk).2 = some error) :
    Ends (task.refused source s!"cannot create {(task.target source).parent.toText}" error)
  | notRead (session : Session) (error : FileError) (hpassed : passed session) (hmade : task.Made passed source)
    (hread : task.readSource source session.disk = .error error) :
    Ends (task.refused source "cannot read source" error)
  | noText (session : Session) (bytes : ByteArray) (fault : Text.Utf8.Fault) (hpassed : passed session)
    (hmade : task.Made passed source) (hread : task.readSource source session.disk = .ok bytes)
    (hdecode : Text.Utf8.decode bytes = .error fault) :
    Ends (task.note source .error s!"cannot read source: {fault.message}")
  | notParsed (session : Session) (language : Language) (bytes : ByteArray) (text : String)
    (error : Rust.SourceError) (hpassed : passed session) (hmade : task.Made passed source)
    (hlanguage : Language.choose? task.languages source.path = some language)
    (hread : task.readSource source session.disk = .ok bytes) (hdecode : Text.Utf8.decode bytes = .ok text)
    (hfunctions : (language.survey (Text.withUnifiedNewlines text)).functions = .error error) :
    Ends (task.note source .error s!"parse failure: {error.message}")
  | empty (session : Session) (language : Language) (bytes : ByteArray) (text : String)
    (hpassed : passed session) (hmade : task.Made passed source)
    (hlanguage : Language.choose? task.languages source.path = some language)
    (hread : task.readSource source session.disk = .ok bytes) (hdecode : Text.Utf8.decode bytes = .ok text)
    (hfunctions : (language.survey (Text.withUnifiedNewlines text)).functions = .ok []) :
    Ends (task.note source .warning "no exported functions found")
  | unsupported (functions : List Rust.ExportedFunction) (error : Platform.Unsupported)
    (hmade : task.Made passed source) (hfunctions : task.Exported passed source functions)
    (hplatform : Platform.resolve task.plan.platform = .error error) : Ends (.unsupported error)
  | notRendered (session : Session) (functions : List Rust.ExportedFunction) (fault : Template.Fault)
    (hpassed : passed session) (hmade : task.Made passed source)
    (hfunctions : task.Exported passed source functions)
    (hlayout : task.layOut source session.disk functions = .error (.stopped (.template fault))) :
    Ends (.stopped (.template fault))
  | notWritten (session : Session) (functions : List Rust.ExportedFunction) (layout : Layout)
    (error : FileError) (hpassed : passed session) (hwrites : task.dryRun = false)
    (hmade : task.Made passed source) (hfunctions : task.Exported passed source functions)
    (hlayout : task.Rendered passed source functions layout)
    (hwritten : (task.writeContent source layout session.disk).2 = some error) :
    Ends (task.refused source s!"cannot write {(task.target source).toText}" error)
  | notEncoded (session : Session) (functions : List Rust.ExportedFunction) (layout : Layout)
    (hpassed : passed session) (hwrites : task.dryRun = false) (hmade : task.Made passed source)
    (hfunctions : task.Exported passed source functions)
    (hlayout : task.Rendered passed source functions layout)
    (hwritten : (task.writeContent source layout session.disk).2 = none) (hhalved : layout.isHalved = true) :
    Ends (.stopped (.file Layout.noEncoding))
  | bound (functions : List Rust.ExportedFunction) (layout : Layout) (hmade : task.Made passed source)
    (hfunctions : task.Exported passed source functions)
    (hlayout : task.Rendered passed source functions layout)
    (hwritten : task.dryRun = false → layout.isHalved = false ∧ ∃ session, passed session ∧
      (task.writeContent source layout session.disk).2 = none) :
    Ends (.bound (task.entry source layout) (task.target source))

/-- What is known of a module at a stage of the work on it. -/
inductive Reached : Stage → Prop where
  | waiting : Reached .waiting
  | prepared (language : Language) (hlanguage : Language.choose? task.languages source.path = some language)
    (hmade : task.Made passed source) : Reached (.prepared language)
  | laidOut (functions : List Rust.ExportedFunction) (layout : Layout) (hmade : task.Made passed source)
    (hfunctions : task.Exported passed source functions)
    (hlayout : task.Rendered passed source functions layout) : Reached (.laidOut layout)
  | finished (outcome : Outcome) (hends : task.Ends passed source outcome) : Reached (.finished outcome)

variable {task passed source} {session : Session}

/-! ### The steps -/

theorem Reached.of_prepare (hpassed : passed session) :
    task.Reached passed source (afterPreparing (task.prepare source session).2) := by
  cases hlanguage : Language.choose? task.languages source.path with
  | none =>
    simp only [prepare, hlanguage, afterPreparing]
    exact .finished _ (.noLanguage hlanguage)
  | some language =>
    by_cases hdry : task.dryRun = true
    · simp only [prepare, hlanguage, if_pos hdry, afterPreparing]
      refine .prepared language hlanguage fun hwrites => ?_
      rw [hdry] at hwrites
      exact absurd hwrites (by simp)
    · have hwrites : task.dryRun = false := by simpa using hdry
      simp only [prepare, hlanguage, hwrites, Bool.false_eq_true, if_false]
      rcases hmade : task.makeDirectory source session.disk with ⟨disk, _ | error⟩
      · exact .prepared language hlanguage fun _ => ⟨session, hpassed, by rw [hmade]⟩
      · exact .finished _ (.notMade session error hpassed hwrites (by rw [hmade]))

/-- Functions get a layout, unless the platform or the template has none for them. -/
theorem Reached.of_layOut (hpassed : passed session) (hmade : task.Made passed source)
    {functions : List Rust.ExportedFunction} (hfunctions : task.Exported passed source functions) :
    task.Reached passed source (afterReading (task.layOut source session.disk functions)) := by
  cases hlayout : task.layOut source session.disk functions with
  | ok layout => exact .laidOut functions layout hmade hfunctions ⟨session, hpassed, hlayout⟩
  | error outcome =>
    rcases layOut_eq_error hlayout with ⟨error, hplatform, rfl⟩ | ⟨fault, rfl⟩
    · exact .finished _ (.unsupported functions error hmade hfunctions hplatform)
    · exact .finished _ (.notRendered session functions fault hpassed hmade hfunctions hlayout)

theorem Reached.of_read (hpassed : passed session) {language : Language}
    (hnext : passed (task.read source language session).1)
    (hlanguage : Language.choose? task.languages source.path = some language)
    (hmade : task.Made passed source) :
    task.Reached passed source (afterReading (task.read source language session).2) := by
  cases hread : task.readSource source session.disk with
  | error error =>
    simp only [read, hread, afterReading]
    exact .finished _ (.notRead session error hpassed hmade hread)
  | ok bytes =>
    simp only [read, hread] at hnext ⊢
    unfold extract at hnext ⊢
    cases hdecode : Text.Utf8.decode bytes with
    | error fault => exact .finished _ (.noText session bytes fault hpassed hmade hread hdecode)
    | ok text =>
      simp only [hdecode] at hnext
      dsimp only
      rcases hfunctions : (language.survey (Text.withUnifiedNewlines text)).functions with
        error | _ | ⟨function, rest⟩
      · exact .finished _
          (.notParsed session language bytes text error hpassed hmade hlanguage hread hdecode hfunctions)
      · exact .finished _
          (.empty session language bytes text hpassed hmade hlanguage hread hdecode hfunctions)
      · refine Reached.of_layOut hnext hmade ⟨session, language, bytes, hpassed, hlanguage, hread, ?_⟩
        simp only [Language.functionsIn?, hdecode, hfunctions]

theorem Ends.of_write (hpassed : passed session) {functions : List Rust.ExportedFunction} {layout : Layout}
    (hmade : task.Made passed source) (hfunctions : task.Exported passed source functions)
    (hlayout : task.Rendered passed source functions layout) :
    task.Ends passed source (task.write source layout session).2 := by
  by_cases hdry : task.dryRun = true
  · rw [write_dry hdry]
    refine .bound functions layout hmade hfunctions hlayout fun hwrites => ?_
    rw [hdry] at hwrites
    exact absurd hwrites (by simp)
  · have hwrites : task.dryRun = false := by simpa using hdry
    rw [write_eq hwrites]
    cases hwritten : (task.writeContent source layout session.disk).2 with
    | none =>
      cases hhalved : layout.isHalved with
      | true =>
        simp only [writing, hhalved, if_true]
        exact .notEncoded session functions layout hpassed hwrites hmade hfunctions hlayout hwritten hhalved
      | false =>
        simp only [writing, hhalved, Bool.false_eq_true, if_false]
        exact .bound functions layout hmade hfunctions hlayout fun _ => ⟨hhalved, session, hpassed, hwritten⟩
    | some error =>
      exact .notWritten session functions layout error hpassed hwrites hmade hfunctions hlayout hwritten

/-- The step: what is known of a module at a stage leads to what is known of it at the next one. -/
theorem Reached.advance {stage : Stage} (hpassed : passed session)
    (hnext : passed (task.advance source session stage).1) (h : task.Reached passed source stage) :
    task.Reached passed source (task.advance source session stage).2 := by
  cases h with
  | waiting =>
    rw [advance_waiting_eq]
    exact .of_prepare hpassed
  | prepared language hlanguage hmade =>
    rw [advance_prepared_eq] at hnext ⊢
    exact .of_read hpassed hnext hlanguage hmade
  | laidOut functions layout hmade hfunctions hlayout =>
    rw [advance_laidOut_eq]
    exact .finished _ (.of_write hpassed hmade hfunctions hlayout)
  | finished outcome hends => exact .finished outcome hends

/-! ### The run -/

/-- The run: every outcome that is reported has come about on sessions that the work passed through. -/
theorem work_ends (task : Task) (workers : Int) (events : List Event) (sources : List SourceModule)
    (session : Session) (start : Report) :
    ∃ steps : List (SourceModule × Outcome),
      (task.work workers events sources session start).2 = task.reportedAll start steps ∧
      steps.map Prod.fst <+: sources ∧
      (∀ step ∈ steps, task.Ends (task.Passes workers events sources session start) step.1 step.2) ∧
      ((∃ report, task.reportedAll start steps = .ok report) → steps.map Prod.fst = sources) := by
  obtain ⟨steps, hreport, hprefix, hreached, hall⟩ :=
    @work_reported task sources (task.Reached (task.Passes workers events sources session start)) workers
      events session start (fun _ _ => .waiting) fun source passed stage hpassed hnext hstage =>
        hstage.advance hpassed hnext
  refine ⟨steps, hreport, hprefix, fun step hstep => ?_, hall⟩
  cases hreached step hstep with
  | finished outcome hends => exact hends

end FfiBindings.Generation.Task
