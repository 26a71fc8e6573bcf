import FfiBindings.Proofs.Generation.Again
import FfiBindings.Proofs.Generation.Unsupported
import FfiBindings.Proofs.Index.Frame

/-!
What a run keeps of the disk it begins with, whatever it is asked for, wherever the medium fails and however the
steps of its workers interleave. Every file and every directory stays; a file changes only in the place of a binding
or of the index, or as the log file, which gets longer; and files come to no other places than those
(`generate_keeps`). No source is in the place of a binding. The index that a run finds goes on what it held,
unless a binding has the same place (`generate_keeps_index`): nothing keeps a binding from being written over the
index (`index_not_kept`).
-/

set_option autoImplicit false
set_option relaxedAutoImplicit false

namespace FfiBindings.Generation

open Disk

variable {task : Task} {source : SourceModule} {sources : List SourceModule} {start disk : Disk}
  {log : List Location} {session : Session} {report : Report}

namespace Task

/-! ### One step -/

/-- An attempt to write leaves what was there, or a file with other bytes. -/
theorem leftBy_cases (task : Task) (source : SourceModule) (disk : Disk) (layout : Layout)
    (sight : Option Sight) :
    task.leftBy source disk layout sight = sight ∨
      sight ≠ some .directory ∧ ∃ bytes,
        task.leftBy source disk layout sight = some (disk.overwritten bytes sight) := by
  unfold leftBy
  split
  · exact .inl rfl
  · rename_i hplace
    rcases task.attempted source layout with _ | bytes
    · exact .inl rfl
    · exact .inr ⟨hplace, bytes, rfl⟩

theorem writeContent_lengthens (task : Task) (source : SourceModule) (hcurrent : disk.HasCurrent)
    (layout : Layout) :
    Lengthens (· = disk.place (task.target source)) disk (task.writeContent source layout disk).1 := by
  cases hlocate : disk.locate (task.target source) with
  | error error =>
    rw [task.writeContent_of_error source hlocate]
    exact .refl _ disk
  | ok location =>
    obtain ⟨-, hshows⟩ := task.writeContent_spec source hcurrent hlocate layout
    rcases task.leftBy_cases source disk layout (disk.tree.sight? location) with
      hsame | ⟨hplace, bytes, hbytes⟩
    · rw [hsame] at hshows
      exact .of_same hshows
    · rw [hbytes] at hshows
      exact .of_overwritten hshows hplace (locate_eq_place hlocate)

/-- A step leaves all files but the binding, and none of them gets shorter. -/
theorem advance_lengthens (task : Task) (source : SourceModule) (hcurrent : session.disk.HasCurrent)
    (stage : Stage) :
    Lengthens (· = session.disk.place (task.target source)) session.disk
      (task.advance source session stage).1.disk := by
  cases stage with
  | waiting =>
    rw [advance_waiting_eq]
    exact .of_grows (task.prepare_grows source hcurrent)
  | prepared language =>
    rw [advance_prepared_eq]
    unfold read
    split
    · exact .refl _ session.disk
    · exact session.noteAll_lengthens _
  | laidOut layout =>
    rw [advance_laidOut_eq]
    by_cases hdry : task.dryRun = true
    · rw [write_dry hdry]
      exact .refl _ session.disk
    · have hwritten := task.writeContent_lengthens source hcurrent layout
      rw [write_eq (by simpa using hdry)]
      dsimp only
      cases (task.writeContent source layout session.disk).2 with
      | some error => exact hwritten
      | none =>
        rw [noteWriting]
        split
        · exact hwritten
        · exact hwritten.trans (Session.note_lengthens { session with
            disk := (task.writeContent source layout session.disk).1 } _)
  | finished outcome => exact .refl _ session.disk

theorem takeUp_lengthens (task : Task) (source : SourceModule) (outcome : Outcome) (session : Session)
    (report : Report) (rewritten : Location → Prop) :
    Lengthens rewritten session.disk (task.takeUp source outcome session report).1.disk := by
  cases outcome with
  | bound entry written => exact .refl _ session.disk
  | noted diagnostic => exact session.note_lengthens _
  | unsupported error => exact session.note_lengthens _
  | stopped error => exact .refl _ session.disk

/-! ### The work on all modules -/

/-- The places of the bindings. -/
def BindingPlaces (task : Task) (start : Disk) (sources : List SourceModule) (location : Location) : Prop :=
  ∃ source ∈ sources, location = start.place (task.target source)

/-- What the work on the modules has made of a session so far: files have come to the places of bindings, and
the other ones have stayed, the log file longer than before. -/
structure SoFar (task : Task) (start : Disk) (log : List Location) (sources : List SourceModule)
    (session : Session) : Prop where
  logged : session.logLocations = log
  changes : Changes (task.BindingFiles start log sources start) (fun _ => True) start session.disk
  lengthens : Lengthens (task.BindingPlaces start sources) start session.disk

theorem SoFar.of_logged {next : Session} (h : task.SoFar start log sources session)
    (hhandlers : next.journal.handlers = session.journal.handlers)
    (hlogged : Session.OnlyLogged log session.disk next.disk)
    (hlonger : Lengthens (task.BindingPlaces start sources) session.disk next.disk) :
    task.SoFar start log sources next := by
  refine ⟨?_, hlogged.after_changes h.changes fun _ hlog hthere => .inr ⟨hlog, hthere⟩,
    h.lengthens.trans hlonger⟩
  rw [Session.logLocations, hhandlers, ← Session.logLocations, h.logged]

theorem SoFar.advance (h : task.SoFar start log sources session) (hcurrent : start.HasCurrent)
    (hsource : source ∈ sources) (stage : Stage) :
    task.SoFar start log sources (task.advance source session stage).1 := by
  have hthere := h.lengthens.keeps.hasCurrent hcurrent
  have hchanges := task.advance_changes source hthere stage
  have hlonger := task.advance_lengthens source hthere stage
  rw [h.lengthens.keeps.place_eq] at hlonger
  refine ⟨?_, h.changes.trans (hchanges.mono (fun location hfile => ?_) fun _ _ => trivial),
    h.lengthens.trans (hlonger.mono fun location hplace => ⟨source, hsource, hplace⟩)⟩
  · rw [Session.logLocations, advance_handlers, ← Session.logLocations, h.logged]
  · rcases hfile with hplace | ⟨hlog, hfile⟩
    · exact .inl ⟨source, hsource, by rw [hplace, h.lengthens.keeps.place_eq]⟩
    · rw [h.logged] at hlog
      exact (h.changes.fileAt hfile).elim (fun hbefore => .inr ⟨hlog, hbefore⟩) id

theorem SoFar.takeUp (h : task.SoFar start log sources session) (source : SourceModule) (outcome : Outcome)
    (report : Report) : task.SoFar start log sources (task.takeUp source outcome session report).1 := by
  have hlogged := task.takeUp_onlyLogged source outcome session report
  rw [h.logged] at hlogged
  exact h.of_logged (task.takeUp_handlers source outcome session report) hlogged
    (task.takeUp_lengthens source outcome session report _)

/-- However the steps interleave and whatever halts it, the work on the modules keeps to the bindings and the
log file. -/
theorem SoFar.work (h : task.SoFar start log sources session) (hcurrent : start.HasCurrent) (workers : Int)
    (events : List Event) (report : Report) :
    task.SoFar start log sources (task.work workers events sources session report).1 :=
  work_session (fun _ hsource _ stage hsofar => hsofar.advance hcurrent hsource stage)
    (fun source outcome _ report hsofar => hsofar.takeUp source outcome report) workers events report h

/-! ### A whole run -/

end Task

/-- The end of a run leaves at the beginning of the index what it found there. -/
theorem conclude_lengthens (hcurrent : session.disk.HasCurrent) (faults : Index.Faults) (report : Report) :
    Lengthens (fun location => location = session.disk.place report.indexPath ∧
      session.disk.find? report.indexPath = none) session.disk (conclude faults session report).1.disk := by
  obtain ⟨noted, messages, hdisk, -, hnoted⟩ := conclude_noted faults session report
  have hupdated := Index.update_lengthens hcurrent report.indexPath (report.entries.map IndexEntry.importPath)
    report.dryRun faults
  rw [indexUpdate] at hdisk
  rw [← hdisk] at hupdated
  rw [hnoted]
  exact hupdated.trans (noted.noteAll_lengthens messages)

namespace Task

/-- What a run may do to a disk, and what it leaves at the beginning of the files. An index is written anew only
where its path found none before the run. -/
theorem SoFar.generateModules (h : task.SoFar start log sources session) (hcurrent : start.HasCurrent)
    (workers : Int) (events : List Event) :
    let after := (generateModules task workers events sources session).1.disk
    Changes (task.RunFiles start log sources) (fun _ => True) start after ∧
      Lengthens (fun location => task.BindingPlaces start sources location ∨
        (location = start.place task.config.indexPath ∧ start.isFile task.config.indexPath = false))
        start after := by
  have hbindings {next : Session} (hsofar : task.SoFar start log sources next) :
      Changes (task.RunFiles start log sources) (fun _ => True) start next.disk ∧
        Lengthens (fun location => task.BindingPlaces start sources location ∨
          (location = start.place task.config.indexPath ∧ start.isFile task.config.indexPath = false))
          start next.disk := by
    refine ⟨hsofar.changes.mono (fun location hfile => ?_) fun _ h => h, hsofar.lengthens.mono fun _ => .inl⟩
    exact hfile.imp_right .inr
  have hworked := h.work hcurrent workers events task.firstReport
  rw [generateModules_eq]
  rcases hresult : task.work workers events sources session task.firstReport with
    ⟨worked, (aborted | error) | report⟩
  · rw [hresult] at hworked
    exact hbindings hworked
  · rw [hresult] at hworked
    exact hbindings hworked
  rw [hresult] at hworked
  obtain ⟨hchanges, hlonger⟩ := hbindings hworked
  have hkeeps := hlonger.keeps
  have hthere := hkeeps.hasCurrent hcurrent
  have hindex : report.indexPath = task.config.indexPath := (work_settings (congrArg Prod.snd hresult)).1
  have hupdated := Index.update_changes hthere report.indexPath (report.entries.map IndexEntry.importPath)
    report.dryRun task.faults.index
  have hlengthened := conclude_lengthens hthere task.faults.index report
  rw [hindex, hkeeps.place_eq] at hupdated hlengthened
  dsimp only
  constructor
  · obtain ⟨noted, messages, hdisk, hlog, hnoted⟩ := conclude_noted task.faults.index worked report
    have hlogged := (noted.noteAll_changes messages).mono hlog
    rw [indexUpdate, hindex] at hdisk
    rw [← hdisk] at hupdated
    rw [hworked.logged] at hlogged
    rw [hnoted]
    refine hlogged.after_changes (hchanges.trans (hupdated.mono (fun location hplace => ?_) fun _ h => h)) ?_
    · exact .inr (.inl hplace)
    · exact fun location hthere hfile => .inr (.inr ⟨hthere, hfile⟩)
  · refine hlonger.trans (hlengthened.mono fun location hplace => .inr ⟨hplace.1, ?_⟩)
    -- an index that was a file before is one still, so the update reads it
    by_contra hfile
    obtain ⟨content, mode, hfound⟩ := isFile_iff.1 (Bool.not_eq_false _ ▸ hfile)
    obtain ⟨later, hlater, -⟩ := hlonger.find?_eq_file hfound
    rw [hplace.2] at hlater
    exact absurd hlater (by simp)

end Task

section generate

variable {request : Request} {circumstances : Circumstances} {config : Config} {content : ByteArray} {mode : Nat}

/-- The places of the index and of the bindings. -/
def Targets (config : Config) (sources : List SourceModule) (disk : Disk) (location : Location) : Prop :=
  location = disk.place config.indexPath ∨
    ∃ source ∈ sources, location = disk.place (source.bindingPath config.outputRoot)

/-- The second disk has all files and directories of the first one, and further files at the targets only; a file
that is at none of them holds what it held, or more if it is the log file. -/
structure KeepsBut (targets : Location → Prop) (log : List Location) (before after : Disk) : Prop where
  stays : ∀ location entry, before.tree.find? location = some entry →
    ∃ later, after.tree.find? location = some later ∧ later.isDirectory = entry.isDirectory
  kept : ∀ location content mode, before.tree.find? location = some (.file content mode) →
    ¬ targets location → location ∉ log → after.tree.find? location = some (.file content mode)
  logged : ∀ location content mode, before.tree.find? location = some (.file content mode) →
    ¬ targets location → location ∈ log →
    ∃ lines : String, after.tree.find? location = some (.file (content ++ lines.toUTF8) mode)
  brought : ∀ location content mode, after.tree.find? location = some (.file content mode) →
    (∃ entry, before.tree.find? location = some entry) ∨ targets location

theorem KeepsBut.of_changes {targets through : Location → Prop} {before after : Disk}
    (h : Changes (fun location => targets location ∨ location ∈ log ∧ before.tree.FileAt location) through
      before after) (hlonger : Lengthens targets before after) : KeepsBut targets log before after := by
  refine ⟨fun location entry hfound => ?_, fun location content mode hfound htarget hlog => ?_,
    fun location content mode hfound htarget hlog => ?_, fun location content mode hfound => ?_⟩
  · cases entry with
    | file content mode =>
      obtain ⟨later, hlater, -⟩ := hlonger.file location content mode (Tree.sight?_eq_file_iff.2 hfound)
      exact ⟨_, Tree.sight?_eq_file_iff.1 hlater, rfl⟩
    | directory inside =>
      have hdirectory := Tree.sight?_eq_directory_iff.2 ⟨inside, hfound⟩
      obtain ⟨later, hlater⟩ := Tree.sight?_eq_directory_iff.1 (h.keeps.directory location hdirectory)
      exact ⟨_, hlater, rfl⟩
  · refine Tree.sight?_eq_file_iff.1 ((h.sight?_eq_file_iff ?_).2 (Tree.sight?_eq_file_iff.2 hfound))
    rintro (hhere | ⟨hthere, -⟩)
    · exact htarget hhere
    · exact hlog hthere
  · obtain ⟨later, hlater, hhere | ⟨lines, -, rfl⟩⟩ :=
      hlonger.file location content mode (Tree.sight?_eq_file_iff.2 hfound)
    · exact absurd hhere htarget
    · exact ⟨lines, Tree.sight?_eq_file_iff.1 hlater⟩
  · have hfile : after.tree.FileAt location := ⟨content, mode, Tree.sight?_eq_file_iff.2 hfound⟩
    have hbefore (hthere : before.tree.FileAt location) : ∃ entry, before.tree.find? location = some entry := by
      obtain ⟨content, mode, hsight⟩ := hthere
      exact ⟨_, Tree.sight?_eq_file_iff.1 hsight⟩
    rcases h.fileAt hfile with hthere | htarget | ⟨-, hthere⟩
    · exact .inl (hbefore hthere)
    · exact .inr htarget
    · exact .inl (hbefore hthere)

theorem KeepsBut.of_logged {before after : Disk} (h : Session.OnlyLogged log before after)
    (hlonger : Lengthens (fun _ => False) before after) : KeepsBut (fun _ => False) log before after := by
  have hchanges : Changes (fun location => False ∨ location ∈ log ∧ before.tree.FileAt location)
      (fun _ => False) before after := Changes.mono h (fun _ hfile => .inr hfile) fun _ hnone => hnone
  exact .of_changes hchanges hlonger

/-- What the journal says at the beginning is part of what the work may do. -/
theorem begun_soFar (session : Session) (request : Request) (circumstances : Circumstances) (config : Config)
    (sources : List SourceModule) :
    (taskFor request circumstances config).SoFar session.disk session.logLocations sources
      (begun session request sources) := by
  refine ⟨begun_logLocations session request sources, ?_, ?_⟩
  · exact (begun_changes session request sources).after_changes (.refl _ _ session.disk)
      fun _ hlog hthere => .inr ⟨hlog, hthere⟩
  · exact session.noteAll_lengthens [_, _]

/-- The frame of a run. Whatever it is asked for, wherever the medium fails and however its steps interleave, a run
keeps all files and directories, writes files in the places of the index and of bindings only, and to the log
file; and no source is in the place of a binding. A run that does not begin writes to the log file only. -/
theorem generate_keeps (hcurrent : session.disk.HasCurrent) (hnamed : session.disk.tree.isNamed = true)
    (request : Request) (circumstances : Circumstances) :
    (∀ config sources, Begins session request config sources →
      KeepsBut (Targets config sources session.disk) session.logLocations session.disk
          (generate session request circumstances).1.disk ∧
        ∀ source ∈ sources, ∀ other ∈ sources,
          session.disk.place source.path ≠ session.disk.place (other.bindingPath config.outputRoot)) ∧
    ((∀ config sources, ¬ Begins session request config sources) →
      KeepsBut (fun _ => False) session.logLocations session.disk
        (generate session request circumstances).1.disk) := by
  constructor
  · intro config sources hbegins
    obtain ⟨hchanges, hlonger⟩ := (begun_soFar session request circumstances config sources).generateModules hcurrent
      (request.workers.getD config.workers) circumstances.events
    rw [hbegins.generate_eq]
    refine ⟨.of_changes (hchanges.mono (fun location hfile => ?_) fun _ h => h) (hlonger.mono ?_),
      fun source hsource other _ => place_path_ne hnamed hbegins.scan hsource other config.outputRoot⟩
    · rcases hfile with hbinding | hindex | hlog
      · exact .inl (.inr hbinding)
      · exact .inl (.inl hindex)
      · exact .inr hlog
    · rintro location (hbinding | ⟨hindex, -⟩)
      · exact .inr hbinding
      · exact .inl hindex
  · intro hnone
    rcases begins_or_stops session request with ⟨config, sources, hbegins⟩ | ⟨told, error, hstops⟩
    · exact absurd hbegins (hnone config sources)
    · rw [hstops request rfl]
      exact .of_logged (session.noteAll_changes told.toList) (session.noteAll_lengthens told.toList)

end generate

/-- A run on a module whose binding cannot be written to its end, with a log file. -/
theorem generate_keeps_watched :
    Sample.watched.disk.HasCurrent ∧ Sample.watched.disk.tree.isNamed = true ∧
      KeepsBut (Targets Sample.settings [Sample.exporting] Sample.watched.disk) [["run.log"]]
        Sample.watched.disk (generate Sample.watched Sample.request
          { faults := { write := fun _ => some (.failed "disk full", some .empty) } }).1.disk := by
  have hbegins : Begins Sample.watched Sample.request Sample.settings [Sample.exporting] :=
    .of_met (by decide +kernel)
  have hnamed : Sample.watched.disk.tree.isNamed = true := by decide +kernel
  have hcurrent : Sample.watched.disk.HasCurrent := hasCurrent_of_top rfl
  exact ⟨hcurrent, hnamed, ((generate_keeps hcurrent hnamed Sample.request
    { faults := { write := fun _ => some (.failed "disk full", some .empty) } }).1 _ _ hbegins).1⟩

/-- The log file is neither the index nor a binding, and holds more after a run. -/
theorem log_not_kept :
    Begins Sample.watched Sample.request Sample.settings [Sample.exporting] ∧
      ¬ KeepsBut (Targets Sample.settings [Sample.exporting] Sample.watched.disk) []
        Sample.watched.disk (generate Sample.watched Sample.request {}).1.disk := by
  have hbegins : Begins Sample.watched Sample.request Sample.settings [Sample.exporting] :=
    .of_met (by decide +kernel)
  refine ⟨hbegins, fun hkeeps => ?_⟩
  have htarget : ¬ Targets Sample.settings [Sample.exporting] Sample.watched.disk ["run.log"] := by
    unfold Targets
    decide +kernel
  have hkept := hkeeps.kept ["run.log"] .empty 0o644 rfl htarget (by simp)
  have hgrown : (generate Sample.watched Sample.request {}).1.disk.tree.sight? ["run.log"] ≠
      some (.file .empty 0o644) := by
    rw [hbegins.generate_eq]
    decide +kernel
  exact hgrown (Tree.sight?_eq_file_iff.2 hkept)

/-! ### The index -/

section index

variable {request : Request} {config : Config} {content : ByteArray} {mode : Nat}

/-- The index that a run finds is still there afterwards, with its permission bits. If no binding has its place, it
begins with all that it held. -/
theorem generate_keeps_index (hcurrent : session.disk.HasCurrent)
    (hbegins : Begins session request config sources) (circumstances : Circumstances)
    (hindex : session.disk.find? config.indexPath = some (.file content mode)) :
    ∃ later, (generate session request circumstances).1.disk.find? config.indexPath = some (.file later mode) ∧
      ((∀ source ∈ sources, session.disk.place (source.bindingPath config.outputRoot) ≠
          session.disk.place config.indexPath) → ∃ added : String, later = content ++ added.toUTF8) := by
  obtain ⟨-, hlonger⟩ := (begun_soFar session request circumstances config sources).generateModules hcurrent
    (request.workers.getD config.workers) circumstances.events
  rw [hbegins.generate_eq]
  obtain ⟨later, hlater, hheld⟩ := hlonger.find?_eq_file hindex
  refine ⟨later, hlater, fun hapart => ?_⟩
  rcases hheld with (⟨source, hsource, hplace⟩ | ⟨-, hnone⟩) | ⟨lines, -, hadded⟩
  · exact absurd hplace.symm (hapart source hsource)
  · have hfile := isFile_iff.2 ⟨content, mode, hindex⟩
    exact absurd (hnone.symm.trans hfile) (by simp)
  · exact ⟨lines, hadded⟩

end index

namespace Sample

def editedText : String := "export const VERSION = 1;\n"

def editedTree : Tree :=
  .file "index.ts" editedText.toUTF8 0o644 (.directory "rs" (.file "a.rs" sourceText.toUTF8 0o644 .empty) .empty)

/-- A library with an index that is written by hand. -/
def edited : Session where
  disk := { tree := editedTree }

def besideText : String := "output_dir: .\n"

def besideTree : Tree :=
  .file ".bunbind.yml" besideText.toUTF8 0o644 (.file "index.ts" editedText.toUTF8 0o644
    (.directory "rs" (.file "index.rs" sourceText.toUTF8 0o644 .empty) .empty))

/-- A library whose bindings go beside its index, with a module that is named as the index is. -/
def beside : Session where
  disk := { tree := besideTree }

def besideSettings : Config where
  root := ⟨.root, []⟩
  outputDirectory := "."

def namesake : SourceModule := ⟨⟨.root, ["rs", "index.rs"]⟩, []⟩

/-- The binding of that module. -/
def namesakeText : String :=
  "import \x7b dlopen, FFIType, suffix \x7d from \"bun:ffi\";\n\nconst BASE_DIR = \"lib/bin\";\n\n" ++
    "const lib = dlopen(`$\x7bBASE_DIR\x7d/libindex.$\x7bsuffix\x7d`, \x7b\n  f: \x7b\n" ++
    "    args: [],\n    returns: FFIType.void,\n  \x7d,\n\x7d);\n\nexport const f = lib.symbols.f;\n"

end Sample

/-- A run with an index that is written by hand. -/
theorem generate_keeps_index_edited :
    Begins Sample.edited Sample.request Sample.settings [Sample.exporting] ∧
      Sample.edited.disk.find? Sample.settings.indexPath = some (.file Sample.editedText.toUTF8 0o644) ∧
      ∃ added : String, (generate Sample.edited Sample.request {}).1.disk.find? Sample.settings.indexPath =
        some (.file (Sample.editedText.toUTF8 ++ added.toUTF8) 0o644) := by
  have hbegins : Begins Sample.edited Sample.request Sample.settings [Sample.exporting] :=
    .of_met (by decide +kernel)
  have hindex : Sample.edited.disk.find? Sample.settings.indexPath =
      some (.file Sample.editedText.toUTF8 0o644) := rfl
  obtain ⟨later, hlater, hheld⟩ := generate_keeps_index (hasCurrent_of_top rfl) hbegins {} hindex
  obtain ⟨added, rfl⟩ := hheld (by decide +kernel)
  exact ⟨hbegins, hindex, added, hlater⟩

/-- A binding that has the place of the index is written over it, and the run is a success. -/
theorem index_not_kept :
    Begins Sample.beside Sample.request Sample.besideSettings [Sample.namesake] ∧
      Sample.beside.disk.find? Sample.besideSettings.indexPath =
        some (.file Sample.editedText.toUTF8 0o644) ∧
      (generate Sample.beside Sample.request {}).2.map Report.status = .ok .success ∧
      ¬ ∃ added mode, (generate Sample.beside Sample.request {}).1.disk.find? Sample.besideSettings.indexPath =
        some (.file (Sample.editedText.toUTF8 ++ added) mode) := by
  have hbegins : Begins Sample.beside Sample.request Sample.besideSettings [Sample.namesake] :=
    .of_met (by decide +kernel)
  -- the work on the module is evaluated; the update of the index then adds to the text of the binding
  have hworked :
      ((worked Sample.beside Sample.request {} Sample.besideSettings [Sample.namesake]).2.map fun made =>
        (made.status, made.indexPath, made.entries.map IndexEntry.importPath)) =
          .ok (.success, Sample.besideSettings.indexPath, ["./index"]) ∧
      ((worked Sample.beside Sample.request {} Sample.besideSettings [Sample.namesake]).1.disk.read
          Sample.besideSettings.indexPath).map (fun bytes => bytes.data.toList) =
        .ok Sample.namesakeText.toUTF8.data.toList ∧
      (Index.replaceFile (worked Sample.beside Sample.request {} Sample.besideSettings [Sample.namesake]).1.disk
        Sample.besideSettings.indexPath (Index.merge Sample.namesakeText ["./index"]).toUTF8 Index.Faults.none).2 =
          none := by
    decide +kernel
  obtain ⟨hmade, hbytes, hreplace⟩ := hworked
  have hread := Disk.eq_ok_of_toList hbytes
  have hcurrent : Sample.beside.disk.HasCurrent := hasCurrent_of_top rfl
  have hsofar := (begun_soFar Sample.beside Sample.request {} Sample.besideSettings [Sample.namesake]).work hcurrent
    (Sample.request.workers.getD Sample.besideSettings.workers) []
    (taskFor Sample.request {} Sample.besideSettings).firstReport
  have hthere := hsofar.lengthens.keeps.hasCurrent hcurrent
  rw [← worked_eq] at hthere
  rw [hbegins.generate_snd, hbegins.generate_eq, generateModules_eq, ← worked_eq]
  generalize worked Sample.beside Sample.request {} Sample.besideSettings [Sample.namesake] = result at *
  obtain ⟨after, halt | made⟩ := result
  · exact nomatch hmade
  obtain ⟨hstatus, hsettings⟩ := Prod.mk.inj (Except.ok.inj hmade)
  obtain ⟨hindex, hentries⟩ := Prod.mk.inj hsettings
  refine ⟨hbegins, rfl, ?_, ?_⟩
  · have htext : Index.readText after.disk Sample.besideSettings.indexPath Index.Faults.none =
        .ok Sample.namesakeText := by
      simp only [Index.readText, Index.Faults.none, hread, Text.Utf8.decode_toUTF8]
      rfl
    have hupdate : (indexUpdate Index.Faults.none after.disk made).2 =
        .ok (.of Sample.namesakeText ["./index"]) := by
      rw [indexUpdate, hindex, hentries]
      exact Index.update_eq_ok htext hreplace
    have hreport (update : Index.Update) : (indexReport made (.ok update)).map Report.status = .ok .success :=
      congrArg Except.ok hstatus
    rw [← hreport, ← hupdate]
  · rintro ⟨added, mode, hfound⟩
    obtain ⟨held, hheld⟩ := Disk.read_eq_ok_iff.1 hread
    obtain ⟨later, hlater, ⟨-, hnone⟩ | ⟨lines, -, rfl⟩⟩ :=
      (conclude_lengthens hthere Index.Faults.none made).find?_eq_file hheld
    · rw [hindex, hheld] at hnone
      exact absurd hnone (by simp)
    · have hsame := (Entry.file.inj (Option.some.inj (hlater.symm.trans hfound))).1
      have hfirst := congrArg (fun bytes : ByteArray => bytes.data.toList.take 1) hsame
      simp only [ByteArray.data_append, Array.toList_append] at hfirst
      rw [List.take_append_of_le_length (by decide +kernel), List.take_append_of_le_length (by decide +kernel)]
        at hfirst
      exact absurd hfirst (by decide +kernel)

end FfiBindings.Generation
