import FfiBindings.Proofs.Generation.Layout
import FfiBindings.Proofs.Journal

/-!
The work on one module while other modules are worked on. What comes of a module is told by the disk that
the work starts from (`Task.functionsOf?`), for no module writes what another one reads. A step of a module
that nothing hinders keeps what is known of its stage (`Unhindered.advance_right`) and brings files to the
place of its binding and the log file alone (`MayWrite`), so what is known of the other modules stays known
(`StageRight.of_keeps`).
-/

set_option autoImplicit false
set_option relaxedAutoImplicit false

namespace FfiBindings

/-- The functions that bytes in the language export, where they are a text that exports any. -/
def Language.functionsIn? (language : Language) (bytes : ByteArray) :
    Option (List Rust.ExportedFunction) :=
  match Text.Utf8.decode bytes with
  | .error _ => none
  | .ok text =>
    match (language.survey (Text.withUnifiedNewlines text)).functions with
    | .error _ => none
    | .ok [] => none
    | .ok functions => some functions

namespace Generation

open Disk

/-- Neither location is the other one or lies below it. -/
def Apart (location other : Location) : Prop :=
  ¬ location <+: other ∧ ¬ other <+: location

instance (location other : Location) : Decidable (Apart location other) :=
  inferInstanceAs (Decidable (_ ∧ _))

theorem Apart.symm {location other : Location} (h : Apart location other) : Apart other location :=
  ⟨h.2, h.1⟩

namespace Task

variable (task : Task)

/-- Whether some language is there for the module. -/
def supports (source : SourceModule) : Bool :=
  (Language.choose? task.languages source.path).isSome

/-- The functions of a module, where its source can be read and exports any. -/
def functionsOf? (disk : Disk) (source : SourceModule) : Option (List Rust.ExportedFunction) :=
  match Language.choose? task.languages source.path, task.readSource source disk with
  | some language, .ok bytes => language.functionsIn? bytes
  | _, _ => none

/-- Where files may come while these modules are worked on: the bindings, and the log file if it is
there. -/
def MayWrite (start : Disk) (log : List Location) (sources : List SourceModule) (location : Location) :
    Prop :=
  (∃ source ∈ sources, (task.functionsOf? start source).isSome = true ∧
    location = start.place (task.target source)) ∨
    (location ∈ log ∧ ∃ content mode, start.tree.sight? location = some (.file content mode))

/-- Where directories may come while these modules are worked on. -/
def MayMake (start : Disk) (sources : List SourceModule) (location : Location) : Prop :=
  ∃ source ∈ sources, task.supports source = true ∧
    OnTheWay (start.start (task.target source).parent) (task.target source).parent.parts location

/-- What the work on these modules may do to a disk. -/
abbrev MayChange (start : Disk) (log : List Location) (sources : List SourceModule)
    (disk after : Disk) : Prop :=
  Changes (task.MayWrite start log sources) (task.MayMake start sources) disk after

/-- Nothing hinders the work on the modules but what their sources hold: no failure on the way to a
binding, and no binding where another module or the journal has its files. -/
structure Unhindered (start : Disk) (log : List Location) (sources : List SourceModule) : Prop where
  current : start.HasCurrent
  writes : task.dryRun = false
  plain : ∀ source ∈ sources, IsPlain source.path
  target : ∀ source ∈ sources, task.supports source = true → IsPlain (task.target source)
  apart : ∀ source ∈ sources, ∀ other ∈ sources, source ≠ other →
    Apart (start.place (task.target source)) (start.place (task.target other))
  unread : ∀ source ∈ sources, ∀ other ∈ sources,
    start.place source.path ≠ start.place (task.target other)
  template : task.TemplateFixed start
  logTemplate : ∀ location ∈ log, ¬ task.IsTemplate start location
  log : ∀ location ∈ log, ∀ source ∈ sources, location ≠ start.place source.path ∧
    ¬ start.place (task.target source) <+: location
  noNull : ∀ source ∈ sources, task.faults.read source ≠ some .nullInPath
  made : ∀ source ∈ sources, task.supports source = true → task.faults.directory source = none ∧
    (start.makeDirectories (task.target source).parent).2 = none
  written : ∀ source ∈ sources, (task.functionsOf? start source).isSome = true →
    task.faults.write source = none ∧
      start.tree.sight? (start.place (task.target source)) ≠ some .directory
  laidOut : ∀ source ∈ sources, ∀ functions, task.functionsOf? start source = some functions →
    ∃ layout, task.layOut source start functions = .ok layout
  encoded : task.config.binDirectoryHalved = false

/-- What is known of a module at a stage of the work on it. -/
inductive StageRight (start disk : Disk) (source : SourceModule) : Stage → Prop where
  | waiting : StageRight start disk source .waiting
  | prepared (language : Language)
    (hlanguage : Language.choose? task.languages source.path = some language)
    (hparent : disk.isDirectory (task.target source).parent = true) :
    StageRight start disk source (.prepared language)
  | laidOut (functions : List Rust.ExportedFunction) (layout : Layout)
    (hfunctions : task.functionsOf? start source = some functions)
    (hlayout : task.layOut source start functions = .ok layout)
    (hparent : disk.isDirectory (task.target source).parent = true) :
    StageRight start disk source (.laidOut layout)
  | bound (functions : List Rust.ExportedFunction) (layout : Layout) (mode : Nat)
    (hfunctions : task.functionsOf? start source = some functions)
    (hlayout : task.layOut source start functions = .ok layout)
    (hsight : disk.tree.sight? (start.place (task.target source)) =
      some (.file layout.content.toUTF8 mode)) :
    StageRight start disk source (.finished (.bound (task.entry source layout) (task.target source)))
  | noted (diagnostic : Diagnostic) (hfunctions : task.functionsOf? start source = none) :
    StageRight start disk source (.finished (.noted diagnostic))

/-- What one step of the work on a module leaves. -/
structure StepRight (start : Disk) (log : List Location) (source : SourceModule) (before : Session)
    (next : Session × Stage) : Prop where
  handlers : next.1.journal.handlers = before.journal.handlers
  changes : task.MayChange start log [source] before.disk next.1.disk
  stage : task.StageRight start next.1.disk source next.2

variable {task} {start disk after : Disk} {log : List Location} {sources : List SourceModule}
  {source other : SourceModule} {session : Session}

theorem target_parts (task : Task) (source : SourceModule) :
    (task.target source).parts = (task.target source).parent.parts ++ [source.baseName ++ ".ts"] :=
  source.bindingPath_parts task.config.outputRoot

theorem target_ne_nil (task : Task) (source : SourceModule) : (task.target source).parts ≠ [] := by
  rw [target_parts]
  exact List.append_ne_nil_of_right_ne_nil _ (List.cons_ne_nil _ _)

/-- The place of a binding is reached once its directory is there. -/
theorem locate_target (hcurrent : disk.HasCurrent) (hnull : hasNull (task.target source) = false)
    (hparent : disk.isDirectory (task.target source).parent = true) :
    disk.locate (task.target source) = .ok (disk.place (task.target source)) := by
  have hpath : task.target source = ⟨(task.target source).anchor,
      (task.target source).parent.parts ++ [source.baseName ++ ".ts"]⟩ :=
    congrArg (Path.mk (task.target source).anchor) (target_parts task source)
  rw [hpath] at hnull
  have hconcat := locate_concat hcurrent hnull hparent
  rwa [← hpath] at hconcat

/-! ### What the steps of other modules leave alone -/

/-- Whatever keeps the directories and the binding keeps what is known. -/
theorem StageRight.of_keeps {stage : Stage} (h : task.StageRight start disk source stage)
    (hkeeps : KeepsDirectories disk after)
    (hfile : ∀ content mode,
      disk.tree.sight? (start.place (task.target source)) = some (.file content mode) →
        after.tree.sight? (start.place (task.target source)) = some (.file content mode)) :
    task.StageRight start after source stage := by
  cases h with
  | waiting => exact .waiting
  | prepared language hlanguage hparent =>
    exact .prepared language hlanguage (hkeeps.isDirectory hparent)
  | laidOut functions layout hfunctions hlayout hparent =>
    exact .laidOut functions layout hfunctions hlayout (hkeeps.isDirectory hparent)
  | bound functions layout mode hfunctions hlayout hsight =>
    exact .bound functions layout mode hfunctions hlayout (hfile _ mode hsight)
  | noted diagnostic hfunctions => exact .noted diagnostic hfunctions

theorem functionsOf?_isSome_supports (h : (task.functionsOf? start source).isSome = true) :
    task.supports source = true := by
  unfold functionsOf? at h
  unfold supports
  cases hlanguage : Language.choose? task.languages source.path with
  | none => simp [hlanguage] at h
  | some language => rfl

theorem refused_eq_noted (task : Task) (source : SourceModule) (attempt : String) {error : FileError}
    (herror : error ≠ .nullInPath) : ∃ diagnostic, task.refused source attempt error = .noted diagnostic := by
  cases error with
  | refused refusal path => exact ⟨_, rfl⟩
  | failed message => exact ⟨_, rfl⟩
  | nullInPath => exact absurd rfl herror

theorem refused_ne_bound (task : Task) (source : SourceModule) (attempt : String) (error : FileError)
    (entry : IndexEntry) (written : Path) : task.refused source attempt error ≠ .bound entry written := by
  cases error <;> simp [refused, note]

theorem refused_ne_unsupported (task : Task) (source : SourceModule) (attempt : String) (error : FileError)
    (platform : Platform.Unsupported) : task.refused source attempt error ≠ .unsupported platform := by
  cases error <;> simp [refused, note]

/-- What bytes come to: the functions that they export, or a diagnostic. -/
theorem extract_eq (task : Task) (source : SourceModule) (language : Language) (bytes : ByteArray) :
    match language.functionsIn? bytes with
    | some functions => (task.extract source language bytes).2 = .ok functions
    | none => ∃ diagnostic, (task.extract source language bytes).2 = .error (.noted diagnostic) := by
  unfold Language.functionsIn? extract
  cases Text.Utf8.decode bytes with
  | error fault => exact ⟨_, rfl⟩
  | ok text =>
    dsimp only
    rcases (language.survey (Text.withUnifiedNewlines text)).functions with error | _ | ⟨function, rest⟩
    · exact ⟨_, rfl⟩
    · exact ⟨_, rfl⟩
    · rfl

theorem MayWrite.mono {location : Location} (h : task.MayWrite start log [source] location)
    (hsource : source ∈ sources) : task.MayWrite start log sources location := by
  rcases h with ⟨other, hother, hplace⟩ | hlog
  · exact .inl ⟨other, List.mem_singleton.1 hother ▸ hsource, hplace⟩
  · exact .inr hlog

theorem MayChange.mono (h : task.MayChange start log [source] disk after) (hsource : source ∈ sources) :
    task.MayChange start log sources disk after := by
  refine Changes.mono h (fun location hlocation => hlocation.mono hsource) ?_
  rintro location ⟨other, hother, hway⟩
  exact ⟨other, List.mem_singleton.1 hother ▸ hsource, hway⟩

namespace Unhindered

variable (h : task.Unhindered start log sources)
include h

/-! ### Where nothing comes -/

theorem notMayWrite_source (hsource : source ∈ sources) :
    ¬ task.MayWrite start log sources (start.place source.path) := by
  rintro (⟨other, hother, -, hplace⟩ | ⟨hlog, -⟩)
  · exact h.unread source hsource other hother hplace
  · exact (h.log _ hlog source hsource).1 rfl

/-- No directory comes to the place of a binding. -/
theorem notMayMake_target (hsource : source ∈ sources) :
    ¬ task.MayMake start sources (start.place (task.target source)) := by
  rintro ⟨other, hother, hsupports, hway⟩
  have htarget := h.target other hother hsupports
  by_cases hsame : source = other
  · subst hsame
    exact htarget.place_notOnTheWay (target_ne_nil task source) hway
  · exact (h.apart source hsource other hother hsame).1 (htarget.prefix_of_onTheWay hway)

/-- Files that come above a binding are there from the start. -/
theorem isOpen_target (hsource : source ∈ sources) (hsupports : task.supports source = true)
    (hsofar : task.MayChange start log sources start disk) : disk.IsOpen (task.target source) := by
  have htarget := h.target source hsource hsupports
  have hopen := htarget.isOpen_of_made h.current (h.made source hsource hsupports).2
  refine hopen.of_changes hsofar fun above habove hne hfile => ?_
  rcases hfile with ⟨other, hother, -, rfl⟩ | ⟨-, hthere⟩
  · refine absurd habove (h.apart other hother source hsource ?_).1
    rintro rfl
    exact hne rfl
  · exact hthere

/-- What the journal writes is what the work on any modules may do. -/
theorem mayChange_of_logged (hsofar : task.MayChange start log sources start disk)
    (hlogged : Session.OnlyLogged log disk after) (some : List SourceModule) :
    task.MayChange start log some disk after := by
  refine Changes.mono hlogged ?_ fun _ hnone => hnone.elim
  rintro location ⟨hlog, hthere⟩
  rcases hsofar.fileAt hthere with hbefore | ⟨source, hsource, -, rfl⟩ | hbefore
  · exact .inr ⟨hlog, hbefore⟩
  · exact absurd (List.prefix_refl _) (h.log _ hlog source hsource).2
  · exact .inr hbefore

/-- The template is as it is from the start. -/
theorem template_eq (hsofar : task.MayChange start log sources start disk) :
    task.template disk = task.template start := by
  refine h.template.template_eq h.current hsofar fun location htemplate => ?_
  rintro (⟨source, -, -, hplace⟩ | ⟨hlog, -⟩)
  · exact target_ne_template htemplate source hplace
  · exact h.logTemplate location hlog htemplate

/-! ### The steps -/

theorem makeDirectories_target (hsource : source ∈ sources) (hsupports : task.supports source = true)
    (hsofar : task.MayChange start log sources start disk) :
    (disk.makeDirectories (task.target source).parent).2 = none :=
  (h.target source hsource hsupports).makeDirectories_parent (hsofar.keeps.hasCurrent h.current)
    (target_ne_nil task source) (h.isOpen_target hsource hsupports hsofar)

/-- A source is read as it is from the start. -/
theorem readSource_eq_ok_iff (hsource : source ∈ sources)
    (hsofar : task.MayChange start log sources start disk) {bytes : ByteArray} :
    task.readSource source disk = .ok bytes ↔ task.readSource source start = .ok bytes := by
  unfold readSource
  cases task.faults.read source with
  | some error => rfl
  | none =>
    have hplain := h.plain source hsource
    have hsame (mode : Nat) :
        disk.tree.sight? (start.place source.path) = some (.file bytes mode) ↔
          start.tree.sight? (start.place source.path) = some (.file bytes mode) :=
      hsofar.sight?_eq_file_iff (h.notMayWrite_source hsource)
    rw [hplain.read_eq_ok_iff (hsofar.keeps.hasCurrent h.current), hplain.read_eq_ok_iff h.current,
      hsofar.keeps.place_eq]
    exact exists_congr hsame

theorem readSource_ne_nullInPath (hsource : source ∈ sources) (disk : Disk) :
    task.readSource source disk ≠ .error .nullInPath := by
  unfold readSource
  cases hfault : task.faults.read source with
  | some error =>
    intro heq
    rw [Except.error.inj heq] at hfault
    exact h.noNull source hsource hfault
  | none => exact Disk.read_ne_nullInPath (h.plain source hsource).noNull

/-- The first step: a supported module gets the directory of its binding. -/
theorem advance_waiting (hsource : source ∈ sources)
    (hsofar : task.MayChange start log sources start session.disk) :
    task.StepRight start log source session (task.advance source session .waiting) := by
  cases hlanguage : Language.choose? task.languages source.path with
  | none =>
    have hfunctions : task.functionsOf? start source = none := by
      simp only [functionsOf?, hlanguage]
    simp only [advance, prepare, hlanguage]
    exact ⟨rfl, Changes.refl _ _ _, .noted _ hfunctions⟩
  | some language =>
    have hsupports : task.supports source = true := by
      rw [supports, hlanguage]
      rfl
    have hcurrent := hsofar.keeps.hasCurrent h.current
    have hmade := h.makeDirectories_target hsource hsupports hsofar
    have hgrows := makeDirectories_grows hcurrent (task.target source).parent
    have hparent := isDirectory_makeDirectories hcurrent hmade
    rw [hsofar.keeps.start_eq] at hgrows
    have hresult : session.disk.makeDirectories (task.target source).parent =
        ((session.disk.makeDirectories (task.target source).parent).1, none) := by
      rw [← hmade]
    simp only [advance, prepare, hlanguage, h.writes, Bool.false_eq_true, if_false, makeDirectory,
      (h.made source hsource hsupports).1]
    rw [hresult]
    refine ⟨rfl, ?_, .prepared language hlanguage hparent⟩
    refine Changes.of_grows (hgrows.mono fun location hway => ?_)
    exact ⟨source, List.mem_singleton_self source, hsupports, hway⟩

/-- The second step: the source is read, whatever has come to the disk since the start, and laid out
where it exports functions. -/
theorem advance_prepared (hsource : source ∈ sources)
    (hsofar : task.MayChange start log sources start session.disk) (hlog : session.logLocations = log)
    {language : Language} (hstage : task.StageRight start session.disk source (.prepared language)) :
    task.StepRight start log source session (task.advance source session (.prepared language)) := by
  obtain ⟨hlanguage, hparent⟩ : Language.choose? task.languages source.path = some language ∧
      session.disk.isDirectory (task.target source).parent = true := by
    cases hstage with
    | prepared _ hlanguage hparent => exact ⟨hlanguage, hparent⟩
  cases hread : task.readSource source session.disk with
  | error error =>
    have hfunctions : task.functionsOf? start source = none := by
      cases hstart : task.readSource source start with
      | error earlier => simp only [functionsOf?, hlanguage, hstart]
      | ok bytes =>
        rw [(h.readSource_eq_ok_iff hsource hsofar).2 hstart] at hread
        exact absurd hread (by simp)
    have herror : error ≠ .nullInPath := by
      rintro rfl
      exact h.readSource_ne_nullInPath hsource session.disk hread
    obtain ⟨diagnostic, hnoted⟩ := task.refused_eq_noted source "cannot read source" herror
    simp only [advance, read, hread, hnoted]
    exact ⟨rfl, Changes.refl _ _ _, .noted diagnostic hfunctions⟩
  | ok bytes =>
    have hstart := (h.readSource_eq_ok_iff hsource hsofar).1 hread
    have hfunctions : task.functionsOf? start source = language.functionsIn? bytes := by
      simp only [functionsOf?, hlanguage, hstart]
    have hextract := task.extract_eq source language bytes
    have hlogged := Session.noteAll_changes session (task.extract source language bytes).1
    rw [hlog] at hlogged
    have hhandlers := Session.noteAll_handlers session (task.extract source language bytes).1
    have hchanges := h.mayChange_of_logged hsofar hlogged [source]
    simp only [advance, read, hread]
    cases hknown : language.functionsIn? bytes with
    | none =>
      rw [hknown] at hextract hfunctions
      obtain ⟨diagnostic, hnoted⟩ := hextract
      rw [hnoted]
      exact ⟨hhandlers, hchanges, .noted diagnostic hfunctions⟩
    | some functions =>
      rw [hknown] at hextract hfunctions
      obtain ⟨layout, hlayout⟩ := h.laidOut source hsource functions hfunctions
      have htemplate := h.template_eq (hsofar.trans (hchanges.mono hsource))
      rw [hextract, Except.bind, layOut_congr htemplate, hlayout]
      exact ⟨hhandlers, hchanges, .laidOut functions layout hfunctions hlayout
        (hchanges.keeps.isDirectory hparent)⟩

/-- The last step: the binding is written and stays what is written, also when the journal says so. -/
theorem advance_laidOut (hsource : source ∈ sources)
    (hsofar : task.MayChange start log sources start session.disk) (hlog : session.logLocations = log)
    {layout : Layout} (hstage : task.StageRight start session.disk source (.laidOut layout)) :
    task.StepRight start log source session (task.advance source session (.laidOut layout)) := by
  obtain ⟨functions, hfunctions, hlayout, hparent⟩ : ∃ functions,
      task.functionsOf? start source = some functions ∧ task.layOut source start functions = .ok layout ∧
        session.disk.isDirectory (task.target source).parent = true := by
    cases hstage with
    | laidOut functions _ hfunctions hlayout hparent => exact ⟨functions, hfunctions, hlayout, hparent⟩
  have hsome : (task.functionsOf? start source).isSome = true := by
    rw [hfunctions]
    rfl
  have hcurrent := hsofar.keeps.hasCurrent h.current
  obtain ⟨hfault, hplace⟩ := h.written source hsource hsome
  have hwhole := layOut_whole hlayout h.encoded
  have hlocate : session.disk.locate (task.target source) = .ok (start.place (task.target source)) := by
    have hplain := h.target source hsource (functionsOf?_isSome_supports hsome)
    rw [← hsofar.keeps.place_eq]
    exact locate_target hcurrent hplain.noNull hparent
  have hvacant : session.disk.tree.sight? (start.place (task.target source)) ≠ some .directory :=
    hsofar.sight?_ne_directory (h.notMayMake_target hsource) hplace
  obtain ⟨written, mode, hwrite, hshows⟩ :=
    write_showsAt hcurrent hlocate hvacant layout.content.toUTF8
  have hfirst : task.MayChange start log [source] session.disk written :=
    Changes.of_showsAt hshows hvacant (.inl ⟨source, List.mem_singleton_self source, hsome, rfl⟩)
  have hlogged := Session.note_changes { session with disk := written } ⟨.debug, journalName,
    s!"Wrote {(task.target source).toText} ({layout.names.length} functions)"⟩
  have hlog : Session.logLocations { session with disk := written } = log := hlog
  rw [hlog] at hlogged
  simp only [advance, write, h.writes, Bool.false_eq_true, if_false, writeContent, writeFault, hfault,
    Option.filter_none, Layout.bytes, hwhole, hwrite]
  refine ⟨Session.note_handlers _ _, ?_, ?_⟩
  · exact hfirst.trans (h.mayChange_of_logged (hsofar.trans (hfirst.mono hsource)) hlogged [source])
  · refine .bound functions layout mode hfunctions hlayout ?_
    refine (hlogged.sight?_eq_file_iff ?_).2 hshows.here
    rintro ⟨hthere, -⟩
    exact (h.log _ hthere source hsource).2 (List.prefix_refl _)

/-- Every step keeps what is known of its module. -/
theorem advance_right (hsource : source ∈ sources)
    (hsofar : task.MayChange start log sources start session.disk) (hlog : session.logLocations = log)
    {stage : Stage} (hstage : task.StageRight start session.disk source stage) :
    task.StepRight start log source session (task.advance source session stage) := by
  cases stage with
  | waiting => exact h.advance_waiting hsource hsofar
  | prepared language => exact h.advance_prepared hsource hsofar hlog hstage
  | laidOut layout => exact h.advance_laidOut hsource hsofar hlog hstage
  | finished outcome => exact ⟨rfl, Changes.refl _ _ _, hstage⟩

end Unhindered

end Task

end Generation

end FfiBindings
