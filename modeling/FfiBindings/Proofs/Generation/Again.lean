import FfiBindings.Proofs.Config.Load
import FfiBindings.Proofs.Generation.Distinct
import FfiBindings.Proofs.Generation.Entries
import FfiBindings.Proofs.Generation.Parallel

/-!
A run after a run. What a run brings to a disk feeds into no other run on it: the settings, the template, the
modules and their sources are the same again, the bindings are what they would be made to be, and the index
holds the lines that would be added (`LeftBehind`). So the second run comes to the same report, but that the
index is not changed, and leaves the disk as it is (`generate_again`). A log file grows with every run, and a
source directory outside the library must not come into being with the index (`not_again_without_conditions`).
-/

set_option autoImplicit false
set_option relaxedAutoImplicit false

namespace FfiBindings

namespace Generation

open Disk

namespace Task

variable (task : Task)

/-! ### What a run leaves -/

/-- Where a run may bring a file: to the places of the bindings and of the index, or over the log file. -/
def RunFiles (start : Disk) (log : List Location) (sources : List SourceModule) (location : Location) :
    Prop :=
  (∃ source ∈ sources, location = start.place (task.target source)) ∨
    location = start.place task.config.indexPath ∨ (location ∈ log ∧ start.tree.FileAt location)

/-- Where a run may bring a directory: above the places of the bindings and of the index. -/
def RunDirectories (start : Disk) (sources : List SourceModule) (location : Location) : Prop :=
  (∃ source ∈ sources, location <+: start.place (task.target source)) ∨
    location <+: start.place task.config.indexPath

/-- What a run may do to a disk. -/
abbrev Runs (start : Disk) (log : List Location) (sources : List SourceModule) (disk after : Disk) : Prop :=
  Changes (task.RunFiles start log sources) (task.RunDirectories start sources) disk after

/-- The index is beside all bindings, and no module reads it. -/
structure IndexApart (start : Disk) (log : List Location) (sources : List SourceModule) : Prop where
  current : start.HasCurrent
  down : ".." ∉ task.config.indexPath.parts
  beside : ∀ source ∈ sources, Apart (start.place (task.target source)) (start.place task.config.indexPath)
  unread : ∀ source ∈ sources, ¬ task.Reads source start (start.place task.config.indexPath)
  log : start.place task.config.indexPath ∉ log

/-- What a run that is not aborted leaves: all of the work on the modules is done, with that report, and an
index that holds the lines of their bindings. -/
structure LeftBehind (start : Disk) (log : List Location) (sources : List SourceModule) (report : Report)
    (disk : Disk) : Prop where
  reported : task.reportedAll task.firstReport (task.aloneSteps start sources) = .ok report
  runs : task.Runs start log sources start disk
  follows : ∀ source ∈ sources, ∃ n, task.Follows source start n disk ∧
    task.diskAt source start n = (task.alone source start).1.disk
  read : task.faults.index .read = none
  index : ∃ file text, Index.Ready disk task.config.indexPath (start.place task.config.indexPath) (some file) ∧
    file.text = Index.merge text (report.entries.map IndexEntry.importPath)

variable {task} {start before disk after : Disk} {log : List Location} {sources : List SourceModule}
  {source : SourceModule} {session next : Session} {report final : Report} {n : Nat}

/-- The update of the index is seen by no module. -/
theorem Independent.follows_of_update (h : task.Independent start log sources)
    (hindex : task.IndexApart start log sources) (hsource : source ∈ sources)
    (hfollows : task.Follows source start n disk) (hplain : IsPlain task.config.indexPath)
    (hkeeps : KeepsDirectories start disk)
    (hchanges : Changes (· = start.place task.config.indexPath) (Index.AboveIndex disk task.config.indexPath)
      disk after) : task.Follows source start n after := by
  refine hfollows.of_changes (h.steady source hsource) hchanges ?_ ?_ ?_
  · rintro location hreads rfl
    exact hindex.unread source hsource hreads
  · rintro above habove rfl
    exact absurd habove (hindex.beside source hsource).2
  · intro hway
    have habove := hplain.prefix_of_onTheWay hway
    rw [hkeeps.place_eq] at habove
    exact absurd habove (hindex.beside source hsource).1

/-- What the journal writes is what a run may do. -/
theorem runs_of_logged (hruns : task.Runs start log sources start disk)
    (hlogged : Session.OnlyLogged log disk after) : task.Runs start log sources start after :=
  hlogged.after_changes hruns fun _ hlog hthere => .inr (.inr ⟨hlog, hthere⟩)

/-- The work on the modules is part of what a run may do. -/
theorem Independent.runs_of_settles (h : task.Independent start log sources)
    (hbegun : Session.OnlyLogged log start before) (hsettles : task.Settles start log sources before after) :
    task.Runs start log sources before after := by
  have hlook := LooksLike.of_logged hbegun
  refine ⟨hsettles.current, hsettles.umask, fun location => ?_⟩
  rcases hsettles.sight location with hsame | ⟨hnone, hnew, source, hsource, hmade⟩ | ⟨hfile, hplace, hnew⟩
  · exact .inl hsame
  · refine .inr (.inl ⟨hnone, hnew, .inl ⟨source, hsource, ?_⟩⟩)
    have hsteady := h.steady source hsource
    have hchanges := diskAt_changes task source hsteady.current 3
    rw [diskAt, aloneAt_three] at hchanges
    rcases hchanges.sight location with hsame | ⟨-, -, hway⟩ | ⟨-, -, content, mode, hfile⟩
    · rw [hsame, (hlook.none_iff location).1 hnone] at hmade
      exact absurd hmade (by simp)
    · exact (stepDirectories_above hsteady.down hway).1
    · rw [hfile] at hmade
      exact absurd hmade (by simp)
  · refine .inr (.inr ⟨?_, hplace, hnew⟩)
    rcases hfile with hbinding | ⟨hlog, hthere⟩
    · exact .inl hbinding
    · exact .inr (.inr ⟨hlog, (hlook.fileAt_iff location).1 hthere⟩)

theorem runs_of_update (hplain : IsPlain task.config.indexPath) (hkeeps : KeepsDirectories start disk)
    (hchanges : Changes (· = start.place task.config.indexPath) (Index.AboveIndex disk task.config.indexPath)
      disk after) : task.Runs start log sources disk after := by
  refine hchanges.mono (fun location hplace => .inr (.inl hplace)) fun location hway => .inr ?_
  rw [← hkeeps.place_eq]
  exact hplain.prefix_of_onTheWay hway

/-- A run that is not aborted has done all of its work. -/
theorem Independent.leftBehind (h : task.Independent start log sources)
    (hindex : task.IndexApart start log sources) (hwrites : task.dryRun = false)
    (hbegun : Session.OnlyLogged log start session.disk) (hlog : session.logLocations = log)
    {workers : Int} {events : List Event}
    (hrun : generateModules task workers events sources session = (next, .ok final))
    (hdone : final.aborted = false) :
    ∃ report changed, final = { report with indexChanged := changed } ∧
      task.LeftBehind start log sources report next.disk := by
  have hbegin : ∀ source ∈ sources, task.Follows source start 0 session.disk := fun source hsource =>
    h.follows_of_logged hsource (.refl task source start) hbegun
  obtain ⟨hreport, hjournal, hsettles, hfollows⟩ :=
    h.work_settled hbegin hlog workers events task.firstReport
  obtain ⟨worked, made, hwork, hconclude⟩ := generateModules_ok (congrArg Prod.snd hrun) hdone
  rw [hwork] at hreport hjournal hsettles hfollows
  rw [hconclude] at hrun
  obtain ⟨hindexPath, hdry, -, -⟩ := reportedAll_settings hreport.symm
  have hindexPath : made.indexPath = task.config.indexPath := hindexPath
  have hdry : made.dryRun = false := hdry.trans hwrites
  obtain ⟨update, hupdated, rfl⟩ := conclude_ok (congrArg Prod.snd hrun) hdone
  -- after the update of the index only the journal goes on
  have hlogged := conclude_logged task.faults.index worked made
  rw [hrun, hjournal] at hlogged
  rcases hupdate : indexUpdate task.faults.index worked.disk made with ⟨disk, result⟩
  rw [hupdate] at hupdated hlogged
  obtain rfl : result = .ok update := hupdated
  have hkeeps := hbegun.keeps.trans hsettles.keeps
  have hcurrent := hkeeps.hasCurrent hindex.current
  rw [indexUpdate, hindexPath, hdry] at hupdate
  obtain ⟨hread, text, file, -, hready, htext, hchanges⟩ :=
    Index.update_ok hindex.down hcurrent hupdate
  rw [hkeeps.place_eq] at hready hchanges
  have hplain : IsPlain task.config.indexPath :=
    ⟨hindex.down, (locate_eq_ok_iff.1 hready.located).1⟩
  have hruns : task.Runs start log sources start disk := by
    have hfirst : task.Runs start log sources start session.disk := runs_of_logged (Changes.refl _ _ start) hbegun
    exact (hfirst.trans (h.runs_of_settles hbegun hsettles)).trans (runs_of_update hplain hkeeps hchanges)
  refine ⟨made, update.changed, rfl, hreport.symm, runs_of_logged hruns hlogged,
    fun source hsource => ?_, hread, file, text, ?_, htext⟩
  · obtain ⟨n, hthere, hfinished⟩ := hfollows source hsource
    refine ⟨n, h.follows_of_logged hsource ?_ hlogged, hfinished ⟨made, rfl⟩⟩
    exact h.follows_of_update hindex hsource hthere hplain hkeeps hchanges
  · exact hready.alike hindex.down (LooksLike.of_logged hlogged) hindex.log

/-- The import paths of a report are those of modules. -/
theorem forall_importPath (holds : String → Prop) {workers : Int} {events : List Event}
    (hwork : (task.work workers events sources session task.firstReport).2 = .ok report)
    (h : ∀ source ∈ sources, holds (source.importPath task.config.outputDirectory)) :
    ∀ importPath ∈ report.entries.map IndexEntry.importPath, holds importPath := by
  have hstart : task.Binds [] task.firstReport := ⟨rfl, rfl⟩
  obtain ⟨bound, hsub, hbinds⟩ := work_binds hstart (.inl hwork)
  rw [hbinds.entries]
  intro importPath hmem
  obtain ⟨source, hsource, rfl⟩ := List.mem_map.1 hmem
  exact h source (hsub.subset hsource)

/-- On what a run leaves behind, another one comes to the same report and finds nothing to change. -/
theorem LeftBehind.generateModules_again (hleft : task.LeftBehind start log sources report disk)
    {other : List Location} (h : task.Independent start other sources)
    (hindex : task.IndexApart start other sources)
    (hlines : ∀ source ∈ sources, Text.IsLine (source.importPath task.config.outputDirectory).toList)
    (hbegun : Session.OnlyLogged other disk session.disk) (hlog : session.logLocations = other)
    (workers : Int) (events : List Event) :
    (generateModules task workers events sources session).2 = .ok { report with indexChanged := false } ∧
      LooksLike other disk (generateModules task workers events sources session).1.disk := by
  have hdone : ∀ source ∈ sources, task.IsDone source start session.disk := by
    intro source hsource
    obtain ⟨n, hfollows, hfinished⟩ := hleft.follows source hsource
    exact (h.follows_of_logged hsource hfollows hbegun).isDone hfinished
  have hkeeps := hleft.runs.keeps.trans hbegun.keeps
  have hbegin : ∀ source ∈ sources, task.Follows source start 0 session.disk := fun source hsource =>
    ⟨(hdone source hsource).sees, hkeeps, .inr (hdone source hsource).binding⟩
  obtain ⟨hreport, hjournal, hsettles, hfollows⟩ :=
    h.work_settled hbegin hlog workers events task.firstReport
  rw [hleft.reported] at hreport
  have hlines := forall_importPath (fun importPath => Text.IsLine importPath.toList) hreport hlines
  have hdoneAgain : ∀ source ∈ sources, task.IsDone source start
      (task.work workers events sources session task.firstReport).1.disk := by
    intro source hsource
    obtain ⟨n, hthere, hfinished⟩ := hfollows source hsource
    exact hthere.isDone (hfinished ⟨report, hreport⟩)
  have hlook := looksLike_of_done (Changes.refl _ _ session.disk) hdone hsettles hdoneAgain
  obtain ⟨hindexPath, -⟩ := reportedAll_settings hleft.reported
  have hindexPath : report.indexPath = task.config.indexPath := hindexPath
  obtain ⟨file, text, hready, htext⟩ := hleft.index
  rw [generateModules_eq]
  generalize task.work workers events sources session task.firstReport = worked at *
  obtain ⟨worked, result⟩ := worked
  obtain rfl : result = .ok report := hreport
  have hreadyAgain : Index.Ready worked.disk report.indexPath (start.place task.config.indexPath)
      (some file) := by
    rw [hindexPath]
    exact (hready.alike hindex.down (LooksLike.of_logged hbegun) hindex.log).alike hindex.down hlook hindex.log
  obtain ⟨again, hupdate, hsame⟩ := hreadyAgain.update_again hleft.read htext hlines report.dryRun
  have hresult := conclude_snd task.faults.index worked report
  have hlogged := conclude_logged task.faults.index worked report
  rw [indexUpdate, hupdate] at hresult hlogged
  rw [hjournal] at hlogged
  refine ⟨hresult.trans ?_, (LooksLike.of_logged hbegun).trans (hlook.trans (LooksLike.of_logged hlogged))⟩
  rw [indexReport, hsame]

end Task

/-! ### The run -/

section generate

variable {session later after : Session} {request : Request} {circumstances : Circumstances}
  {config : Config} {sources : List SourceModule} {task : Task} {start disk : Disk} {log : List Location}
  {report : Report}

/-- When a run changes no file that another one depends on: the bindings are separate, the index is beside them
and neither a source nor the settings file nor the template, and every import path is one line. -/
structure Repeatable (task : Task) (start : Disk) (sources : List SourceModule) : Prop
    extends Separate task start sources where
  beside : ∀ source ∈ sources, Apart (start.place (task.target source)) (start.place task.config.indexPath)
  noSource : ∀ name ∈ (start.place task.config.indexPath).getLast?,
    (selectionOf task.config).hasSuffix name = false
  noSettings : start.place task.config.indexPath ≠ start.place (task.config.root.child Config.fileName)
  noTemplate : ¬ task.IsTemplate start (start.place task.config.indexPath)
  lines : ∀ source ∈ sources, Text.IsLine (source.importPath task.config.outputDirectory).toList

/-- The source directory is there, or it would be in the library. -/
def SourcesInside (config : Config) (start : Disk) : Prop :=
  start.isDirectory config.sourceRoot = true ∨
    ∃ relative, config.sourceRoot.relativeTo config.root = .ok relative

/-- The log file is none of the files that a run reads or makes. -/
structure LogAside (task : Task) (start : Disk) (log : List Location) (sources : List SourceModule) : Prop
    where
  apart : LogApart task start log sources
  settings : start.place (task.config.root.child Config.fileName) ∉ log

theorem Repeatable.indexApart (h : Repeatable task start sources) (hroot : ".." ∉ task.config.root.parts)
    (hscan : scan start (selectionOf task.config) task.config.root task.config.sourceDirectory = .ok sources)
    (hapart : LogApart task start log sources) : task.IndexApart start log sources := by
  have hnamed := Tree.isNamed_of_isProper h.proper
  refine ⟨h.current, Path.notMem_joinText hroot h.indexFile, h.beside, fun source hsource hreads => ?_,
    fun hlog => (hapart _ hlog).1 rfl⟩
  have heq := (hreads.resolve_right h.noTemplate).symm
  obtain ⟨hplain, above, name, hparts, hsuffix⟩ :=
    scan_path_isPlain hnamed h.current h.sourceDirectory hscan hsource
  have hplace := hplain.place_eq start
  rw [hparts, ← List.append_assoc, heq] at hplace
  rw [h.noSource name (by rw [hplace, List.getLast?_concat]; rfl)] at hsuffix
  exact absurd hsuffix (by simp)

/-- The settings file stays. -/
theorem Repeatable.notMem_runFiles (h : Repeatable task start sources)
    (haside : LogAside task start log sources) :
    ¬ task.RunFiles start log sources (start.place (task.config.root.child Config.fileName)) := by
  rintro (⟨source, -, hplace⟩ | hplace | ⟨hlog, -⟩)
  · exact task.place_child_ne_target source start _ (by decide) (by decide) hplace
  · exact h.noSettings hplace.symm
  · exact haside.settings hlog

/-- No file with a source suffix comes or goes. -/
theorem Repeatable.fileAt_iff (h : Repeatable task start sources)
    (hruns : task.Runs start log sources start disk) {above : Location} {name : String}
    (hsuffix : (selectionOf task.config).hasSuffix name = true) :
    disk.tree.FileAt (above ++ [name]) ↔ start.tree.FileAt (above ++ [name]) := by
  rcases hruns.sight (above ++ [name]) with hsame | ⟨hnone, hnew, -⟩ | ⟨hfile, -, hnew⟩
  · exact Tree.fileAt_congr hsame
  · exact iff_of_false (fun hthere => hthere.ne_directory hnew) fun hthere => hthere.ne_none hnone
  · rcases hfile with ⟨source, -, hplace⟩ | hplace | ⟨-, hbefore⟩
    · obtain ⟨-, rfl⟩ := List.append_singleton_inj.1 (hplace.trans (source.place_bindingPath _ start))
      rw [selectionOf, not_hasSuffix_bindingName] at hsuffix
      exact absurd hsuffix (by simp)
    · rw [h.noSource name (by rw [← hplace, List.getLast?_concat]; rfl)] at hsuffix
      exact absurd hsuffix (by simp)
    · exact iff_of_true hnew hbefore

theorem prefix_head {front rest : List String} {part name : String}
    (h : front ++ [name] <+: front ++ part :: rest) : name = part := by
  rw [List.prefix_append_right_inj, List.cons_prefix_cons] at h
  exact h.1

/-- By default a run brings nothing to the place of the settings file. -/
theorem not_runDirectories_settings (hdefault : task.config = { root := task.config.root })
    (hroot : ".." ∉ task.config.root.parts)
    (hdown : ∀ source ∈ sources, ".." ∉ (task.target source).parts) :
    ¬ task.RunDirectories start sources (start.place (task.config.root.child Config.fileName)) := by
  have hplace : start.place (task.config.root.child Config.fileName) =
      start.start task.config.root ++ task.config.root.parts ++ [Config.fileName] := by
    rw [place_child _ _ (by decide), place, Path.walkUpAndDown_eq_append hroot]
  rw [hplace]
  rintro (⟨source, hsource, habove⟩ | habove)
  · have htarget : task.target source = ⟨task.config.root.anchor, task.config.root.parts ++
        "mod" :: (source.directory ++ [source.baseName ++ ".ts"])⟩ := by
      have houtput : task.config.outputRoot =
          ⟨task.config.root.anchor, task.config.root.parts ++ ["mod"]⟩ := by
        have hmod : Path.ofText "mod" = ⟨.current, ["mod"]⟩ := by decide
        rw [Config.outputRoot, show task.config.outputDirectory = "mod" from
          congrArg Config.outputDirectory hdefault, Path.joinText, hmod, Path.join_parts_of_current]
      rw [Task.target, SourceModule.bindingPath, houtput, SourceModule.relativeDirectory,
        Path.join_parts_of_current, Path.child]
      simp
    have hspelled := hdown source hsource
    rw [htarget] at habove hspelled
    rw [place, Path.walkUpAndDown_eq_append hspelled, ← List.append_assoc] at habove
    exact absurd (prefix_head habove) (by decide)
  · have hindex : task.config.indexPath = task.config.root.child "index.ts" := by
      have hname : Path.ofText "index.ts" = ⟨.current, ["index.ts"]⟩ := by decide
      rw [Config.indexPath, show task.config.indexFile = "index.ts" from congrArg Config.indexFile hdefault,
        Path.joinText, hname, Path.join_parts_of_current, Path.child]
    rw [hindex, place_child _ _ (by decide), place, Path.walkUpAndDown_eq_append hroot] at habove
    exact absurd (prefix_head habove) (by decide)

/-- A settings file that is not there does not come. -/
theorem Repeatable.find?_settings_eq_none (h : Repeatable task start sources)
    (haside : LogAside task start log sources) (hdefault : task.config = { root := task.config.root })
    (hroot : ".." ∉ task.config.root.parts) (hdown : ∀ source ∈ sources, ".." ∉ (task.target source).parts)
    (hruns : task.Runs start log sources start disk)
    (hmissing : start.find? (task.config.root.child Config.fileName) = none) :
    disk.find? (task.config.root.child Config.fileName) = none := by
  by_contra hfound
  obtain ⟨entry, hfound⟩ := Option.ne_none_iff_exists'.1 hfound
  have hplain : IsPlain (task.config.root.child Config.fileName) :=
    ⟨Path.notMem_child hroot (by decide), noNull_of_find? hfound⟩
  have hnone := hplain.sight?_of_find?_eq_none h.current hmissing
  rw [← hruns.sight?_eq (h.notMem_runFiles haside) (not_runDirectories_settings hdefault hroot hdown),
    ← hruns.keeps.place_eq] at hnone
  rw [find?_eq_none_of_sight hnone] at hfound
  exact absurd hfound (by simp)

/-- On what a run leaves, another one begins with the same settings and the same modules. -/
theorem Begins.again (hbegins : Begins session request task.config sources)
    (hrepeatable : Repeatable task session.disk sources) (hinside : SourcesInside task.config session.disk)
    (haside : LogAside task session.disk log sources)
    (hruns : task.Runs session.disk log sources session.disk later.disk)
    (hdistinct : later.disk.IsDistinct) (workers : Option Int) :
    Begins later { request with workers } task.config sources := by
  have hnamed := Tree.isNamed_of_isProper hrepeatable.proper
  have hcurrent := hrepeatable.current
  have hkeeps := hruns.keeps
  obtain ⟨hdirectory, hfile, hroot⟩ := hbegins.settingsFile_eq hnamed hcurrent
  have hrootDown := hbegins.root_down hnamed hcurrent
  have hdown : ∀ source ∈ sources, ".." ∉ (task.target source).parts := fun source hsource =>
    (bindingPath_down hnamed hbegins.scan hsource
      (Path.notMem_joinText hrootDown hrepeatable.outputDirectory)).1
  have hsettings : ".." ∉ (task.config.root.child Config.fileName).parts :=
    Path.notMem_child hrootDown (by decide)
  rw [← hroot] at hdirectory hfile
  refine ⟨hbegins.noNull, ?_, ?_⟩
  · have hload := hbegins.load
    rw [hkeeps.current]
    rw [← hroot] at hload ⊢
    refine Config.load_again hkeeps.current ?_ ?_ (fun hmissing => ?_) hload
    · rw [hdirectory, hkeeps.isDirectory hdirectory]
    · rw [hfile]
      exact hruns.sameFile hcurrent hsettings (hrepeatable.notMem_runFiles haside)
    · have hdefault := Config.load_of_missing hload hmissing
      rw [hfile] at hdefault hmissing ⊢
      refine hrepeatable.find?_settings_eq_none haside ?_ hrootDown hdown hruns hmissing
      rw [Path.parent, Path.child, List.dropLast_concat] at hdefault
      exact hdefault
  · have hscan := hbegins.scan
    have habsolute : task.config.root.absolute session.disk.current = task.config.root :=
      Path.absolute_of_root (by rw [hroot]; rfl) hrootDown _
    rw [hkeeps.current]
    rw [← hroot] at hscan ⊢
    refine scan_eq hrepeatable.proper hdistinct hcurrent hkeeps hrepeatable.sourceDirectory ?_
      (fun above name hsuffix => hrepeatable.fileAt_iff hruns hsuffix) hscan
    rw [habsolute]
    exact hinside

/-- A run after one that was not aborted comes to the same report, but that the index is not changed, and
leaves the disk as it is but for what its log file holds. -/
theorem generate_again (hbegins : Begins session request config sources)
    (hrepeatable : Repeatable (taskFor request circumstances config) session.disk sources)
    (hinside : SourcesInside config session.disk) (hwrites : request.dryRun = false)
    (haside : LogAside (taskFor request circumstances config) session.disk
      session.logLocations sources)
    (hrun : generate session request circumstances = (after, .ok report)) (hdone : report.aborted = false)
    (hdisk : later.disk = after.disk)
    (hasideAgain : LogAside (taskFor request circumstances config) session.disk
      later.logLocations sources) (workers : Option Int) (events : List Event) :
    (generate later { request with workers } { circumstances with events }).2 =
        .ok { report with indexChanged := false } ∧
      LooksLike later.logLocations after.disk
        (generate later { request with workers } { circumstances with events }).1.disk := by
  have hnamed := Tree.isNamed_of_isProper hrepeatable.proper
  have hroot := hbegins.root_down hnamed hrepeatable.current
  obtain ⟨-, -, hlibrary⟩ := hbegins.settingsFile_eq hnamed hrepeatable.current
  have hscan := hbegins.scan
  rw [← hlibrary] at hscan
  have hdistinct : later.disk.IsDistinct := by
    have hall := generate_distinct request circumstances (Tree.isDistinct_of_isProper hrepeatable.proper)
    rw [hrun] at hall
    rw [hdisk]
    exact hall
  have hindependent := hbegins.independent hrepeatable.toSeparate haside.apart
  rw [hbegins.generate_eq] at hrun
  obtain ⟨made, changed, rfl, hleft⟩ := hindependent.leftBehind
    (hrepeatable.indexApart hroot hscan haside.apart) hwrites (begun_changes session request sources)
    (begun_logLocations session request sources) hrun hdone
  rw [← hdisk] at hleft ⊢
  have hagain := @Begins.again session later request sources
    (taskFor request circumstances config) session.logLocations hbegins hrepeatable hinside
    haside hleft.runs hdistinct workers
  have hbegun := begun_changes later { request with workers } sources
  rw [Begins.generate_eq hagain]
  exact hleft.generateModules_again (hbegins.independent hrepeatable.toSeparate hasideAgain.apart)
    (hrepeatable.indexApart hroot hscan hasideAgain.apart) hrepeatable.lines hbegun
    (begun_logLocations later { request with workers } sources) _ _

/-- Without a template of its own, and where the current directory is the topmost one, the rest can be computed. -/
theorem Sample.repeatable (htemplate : config.templatesDirectory = none) (hcurrent : session.disk.current = [])
    (hpaths : session.disk.tree.isProper = true ∧ ".." ∉ (Path.ofText config.sourceDirectory).parts ∧
      ".." ∉ (Path.ofText config.outputDirectory).parts ∧ ".." ∉ (Path.ofText config.indexFile).parts)
    (hplaces : (sources.Pairwise fun source other =>
      Apart (session.disk.place ((taskFor request {} config).target source))
        (session.disk.place ((taskFor request {} config).target other))) ∧
      ∀ source ∈ sources, Apart (session.disk.place ((taskFor request {} config).target source))
        (session.disk.place config.indexPath))
    (hindex : (∀ name ∈ (session.disk.place config.indexPath).getLast?,
        (selectionOf config).hasSuffix name = false) ∧
      session.disk.place config.indexPath ≠ session.disk.place (config.root.child Config.fileName))
    (hlines : ∀ source ∈ sources, Text.IsLine (source.importPath config.outputDirectory).toList) :
    Repeatable (taskFor request {} config) session.disk sources := by
  have hnone : ∀ directory, config.templatesDirectory ≠ some directory := by simp [htemplate]
  have hdown : ∀ directory ∈ config.templatesDirectory, ".." ∉ directory.parts :=
    fun directory hdirectory => absurd hdirectory (hnone directory)
  exact ⟨Sample.separate hcurrent ⟨hpaths.1, hpaths.2.1, hpaths.2.2.1, hpaths.2.2.2, hdown⟩ hplaces.1, hplaces.2,
    hindex.1, hindex.2, fun ⟨directory, hdirectory, _⟩ => hnone directory hdirectory, hlines⟩

end generate

/-- Two workers find nothing to change after one. -/
theorem generate_again_sample :
    ∃ after report, generate Sample.library Sample.request {} = (after, .ok report) ∧
      (generate after { Sample.request with workers := some 2 } { events := [.advance 1] }).2 =
        .ok { report with indexChanged := false } ∧
      LooksLike [] after.disk
        (generate after { Sample.request with workers := some 2 } { events := [.advance 1] }).1.disk := by
  have hbegins := Sample.begins_library
  have hrepeatable : Repeatable (taskFor Sample.request {} Sample.settings) Sample.library.disk
      [Sample.exporting, Sample.noText] :=
    Sample.repeatable rfl rfl (by decide +kernel) (by decide +kernel) (by decide +kernel) (by decide +kernel)
  have hinside : SourcesInside Sample.settings Sample.library.disk := .inl (by decide +kernel)
  have haside : LogAside (taskFor Sample.request {} Sample.settings) Sample.library.disk []
      [Sample.exporting, Sample.noText] :=
    ⟨nofun, nofun⟩
  have hdone : (generate Sample.library Sample.request {}).2.map Report.aborted = .ok false := by
    rw [hbegins.generate_eq]
    decide +kernel
  have hlog : (generate Sample.library Sample.request {}).1.logLocations = [] := by
    rw [hbegins.generate_eq]
    decide +kernel
  rcases hrun : generate Sample.library Sample.request {} with ⟨after, error | report⟩
  · rw [hrun] at hdone
    exact absurd hdone (by simp [Except.map])
  · rw [hrun] at hdone hlog
    have hlog : after.logLocations = [] := hlog
    have hsecond := generate_again hbegins hrepeatable hinside rfl haside hrun (Except.ok.inj hdone) rfl
      (by rw [hlog]; exact haside) (some 2) [.advance 1]
    rw [hlog] at hsecond
    exact ⟨after, report, rfl, hsecond⟩

namespace Sample

def journaledTree : Tree :=
  .file "run.log" .empty 0o644 (.file "index.ts" "function Benchmark(".toUTF8 0o644 .empty)

/-- A library without sources whose index needs nothing more, and a log file that the journal goes to. -/
def journaled : Session where
  disk := { tree := journaledTree }
  journal := { level := .info, handlers := Journal.handlersFor .info (some ["run.log"]) }

def outsideText : String := "source_dir: /gen\nindex_file: /gen/index.ts\n"

/-- A library whose sources and index are to be in a directory outside, which is not there. -/
def outside : Session where
  disk := { tree := .directory "lib" (.file ".bunbind.yml" outsideText.toUTF8 0o644 .empty) .empty }

def outsideRequest : Request where
  path := ⟨.root, ["lib"]⟩

def outsideSettings : Config where
  root := ⟨.root, ["lib"]⟩
  sourceDirectory := "/gen"
  indexFile := "/gen/index.ts"

end Sample

/-- Two libraries on which only one thing each is in the way of a second run that changes nothing. A log file
holds more after every run; and where the index is put into a directory for sources outside the library, which
it brings into being, the second run finds sources that are not in the library. -/
theorem not_again_without_conditions :
    (Begins Sample.journaled Sample.request Sample.settings [] ∧
      Repeatable (taskFor Sample.request {} Sample.settings)
        Sample.journaled.disk [] ∧
      SourcesInside Sample.settings Sample.journaled.disk ∧
      ∃ after report, generate Sample.journaled Sample.request {} = (after, .ok report) ∧
        report.aborted = false ∧
        ¬ LooksLike [] after.disk (generate after Sample.request {}).1.disk) ∧
    (Begins Sample.outside Sample.outsideRequest Sample.outsideSettings [] ∧
      Repeatable (taskFor Sample.outsideRequest {} Sample.outsideSettings)
        Sample.outside.disk [] ∧
      ∃ after report, generate Sample.outside Sample.outsideRequest {} = (after, .ok report) ∧
        report.aborted = false ∧ (generate after Sample.outsideRequest {}).2 ≠
          .ok { report with indexChanged := false }) := by
  constructor
  · have hdone : (generate Sample.journaled Sample.request {}).2.map Report.aborted = .ok false := by
      decide +kernel
    have hgrows : ((generate (generate Sample.journaled Sample.request {}).1 Sample.request {}).1.disk.read
        ⟨.root, ["run.log"]⟩).map ByteArray.size ≠
          ((generate Sample.journaled Sample.request {}).1.disk.read ⟨.root, ["run.log"]⟩).map
            ByteArray.size := by
      decide +kernel
    rcases hrun : generate Sample.journaled Sample.request {} with ⟨after, error | report⟩
    · rw [hrun] at hdone
      exact absurd hdone (by simp [Except.map])
    · rw [hrun] at hdone hgrows
      refine ⟨⟨by decide, by decide +kernel, by decide +kernel⟩, ?_, .inr ⟨⟨.current, ["rs"]⟩, by decide⟩,
        after, report, rfl, Except.ok.inj hdone, fun hlook => hgrows ?_⟩
      · exact Sample.repeatable rfl rfl (by decide +kernel) ⟨.nil, nofun⟩ (by decide +kernel) nofun
      · have hread : (generate after Sample.request {}).1.disk.read ⟨.root, ["run.log"]⟩ =
            after.disk.read ⟨.root, ["run.log"]⟩ := hlook.read_eq (by simp)
        exact congrArg (Except.map ByteArray.size) hread
  · have hdone : (generate Sample.outside Sample.outsideRequest {}).2.map Report.aborted = .ok false := by
      decide +kernel
    have hsecond : (generate (generate Sample.outside Sample.outsideRequest {}).1
        Sample.outsideRequest {}).2 = .error (.scan (.outside ⟨⟨.root, ["gen"]⟩, ⟨.root, ["lib"]⟩⟩)) := by
      decide +kernel
    rcases hrun : generate Sample.outside Sample.outsideRequest {} with ⟨after, error | report⟩
    · rw [hrun] at hdone
      exact absurd hdone (by simp [Except.map])
    · rw [hrun] at hdone hsecond
      refine ⟨⟨by decide, by decide +kernel, by decide +kernel⟩, ?_, after, report, rfl,
        Except.ok.inj hdone, ?_⟩
      · exact Sample.repeatable rfl rfl (by decide +kernel) ⟨.nil, nofun⟩ (by decide +kernel) nofun
      · rw [show (generate after Sample.outsideRequest {}).2 = _ from hsecond]
        simp

end Generation

end FfiBindings
