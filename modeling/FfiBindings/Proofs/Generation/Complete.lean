import FfiBindings.Proofs.Generation.Kept
import FfiBindings.Proofs.Source.Suffix

/-!
What a run without errors has done. Once a binding is written, no step of another module and nothing that the
journal writes touches it (`Shown.of_changes`), so at the end of the work it is still what was laid out of the
functions that its source extracts to (`work_shown`). The update of the index comes after all bindings; an index
that is the log file too ends in whole lines when it is read, so what the journal adds leaves its lines as they are
(`find?_conclude_index`). So a run that succeeds is complete (`generate_complete`).
-/

set_option autoImplicit false
set_option relaxedAutoImplicit false

namespace FfiBindings

/-- The functions that a source extracts to, in the first of the languages that it is written in. -/
def Language.extracted? (languages : List Language) (disk : Disk) (path : Path) :
    Option (List Rust.ExportedFunction) :=
  match choose? languages path, disk.read path with
  | some language, .ok bytes =>
    match Text.Utf8.decode bytes with
    | .ok text => (language.survey (Text.withUnifiedNewlines text)).functions.toOption
    | .error _ => none
  | _, _ => none

namespace Generation

open Disk

namespace Task

variable {task : Task} {passed : Session → Prop} {source : SourceModule} {sources : List SourceModule}
  {start disk after : Disk} {log : List Location} {session : Session} {report final : Report} {stage : Stage}

/-! ### What a module extracts to -/

/-- Bytes that were read are those of the file. -/
theorem read_of_readSource {bytes : ByteArray} (h : task.readSource source disk = .ok bytes) :
    disk.read source.path = .ok bytes := by
  unfold readSource at h
  split at h
  · exact absurd h (by simp)
  · exact h

/-- Every session that is passed shows the sources as they are at the start. -/
def ReadAlike (task : Task) (passed : Session → Prop) (start : Disk) (source : SourceModule) : Prop :=
  ∀ session, passed session → task.readSource source session.disk = task.readSource source start

theorem Exported.extracted? {functions : List Rust.ExportedFunction}
    (h : task.Exported passed source functions) (halike : task.ReadAlike passed start source) :
    Language.extracted? task.languages start source.path = some functions ∧ functions ≠ [] := by
  obtain ⟨session, language, bytes, hpassed, hlanguage, hread, hfunctions⟩ := h
  have hbytes := read_of_readSource ((halike session hpassed).symm.trans hread)
  unfold Language.functionsIn? at hfunctions
  split at hfunctions
  · exact absurd hfunctions (by simp)
  rename_i text hdecode
  split at hfunctions
  · exact absurd hfunctions (by simp)
  · exact absurd hfunctions (by simp)
  · rename_i found hnonempty hfound
    obtain rfl := Option.some.inj hfunctions
    refine ⟨by simp only [Language.extracted?, hlanguage, hbytes, hdecode, hfound, Except.toOption], ?_⟩
    rintro rfl
    exact hnonempty rfl

/-- A module that is passed over without an error has a source that exports nothing, or no language is there
for it. -/
theorem Ends.extracted?_of_noted {diagnostic : Diagnostic} (h : task.Ends passed source (.noted diagnostic))
    (hmild : diagnostic.severity ≠ .error) (hlanguage : Language.choose? task.languages source.path ≠ none)
    (halike : task.ReadAlike passed start source) :
    Language.extracted? task.languages start source.path = some [] := by
  generalize houtcome : Outcome.noted diagnostic = outcome at h
  have hrefused (attempt : String) (error : FileError) :
      Outcome.noted diagnostic ≠ task.refused source attempt error := by
    intro heq
    rcases task.refused_cases source attempt error with ⟨message, hnoted⟩ | hstopped
    · obtain rfl := Outcome.noted.inj (heq.trans hnoted)
      exact hmild rfl
    · exact absurd (heq.trans hstopped) (by simp)
  have hsevere {message : String} (heq : Outcome.noted diagnostic = task.note source .error message) : False := by
    obtain rfl := Outcome.noted.inj heq
    exact hmild rfl
  cases h with
  | empty session language bytes text hpassed hmade hchosen hread hdecode hfunctions =>
    have hbytes := read_of_readSource ((halike session hpassed).symm.trans hread)
    simp only [Language.extracted?, hchosen, hbytes, hdecode, hfunctions, Except.toOption]
  | noLanguage hnone => exact absurd hnone hlanguage
  | noText => exact (hsevere houtcome).elim
  | notParsed => exact (hsevere houtcome).elim
  | notMade => exact absurd houtcome (hrefused _ _)
  | notRead => exact absurd houtcome (hrefused _ _)
  | notWritten => exact absurd houtcome (hrefused _ _)
  | unsupported => exact absurd houtcome (by simp)
  | notEncoded => exact absurd houtcome (by simp)
  | notRendered => exact absurd houtcome (by simp)
  | bound => exact absurd houtcome (by simp)

/-! ### What a binding shows -/

/-- The text that is written is found in the place of the binding. -/
theorem find?_writeContent (hcurrent : disk.HasCurrent) {layout : Layout}
    (h : (task.writeContent source layout disk).2 = none) :
    ∃ mode, (task.writeContent source layout disk).1.find? (task.target source) =
      some (.file layout.bytes mode) := by
  cases hlocate : disk.locate (task.target source) with
  | error error =>
    rw [writeContent_eq] at h
    have hwrite (bytes : ByteArray) : disk.write (task.target source) bytes = .error error := by
      simp only [Disk.write, hlocate]
    rcases hfault : task.writeFault source layout with _ | ⟨failure, left⟩
    · simp [attempted, hfault, hwrite] at h
    · cases left <;> simp [attempted, hfault, hwrite] at h
  | ok location =>
    obtain ⟨hresult, hshows⟩ := task.writeContent_spec source hcurrent hlocate layout
    obtain ⟨hfault, hfree⟩ := Option.or_eq_none_iff.1 (hresult.symm.trans h)
    have hplace : disk.tree.sight? location ≠ some .directory := by
      intro hdirectory
      rw [if_pos hdirectory] at hfree
      exact absurd hfree (by simp)
    have hattempted : task.attempted source layout = some layout.bytes := by
      rw [attempted, Option.map_eq_none_iff.1 hfault]
    obtain ⟨mode, hfile⟩ := disk.overwritten_eq layout.bytes (disk.tree.sight? location)
    simp only [leftBy, if_neg hplace, hattempted, hfile] at hshows
    rw [find?, (hshows.keeps hplace).locate_eq_ok hlocate]
    exact ⟨mode, Tree.sight?_eq_file_iff.1 hshows.here⟩

theorem prepare_ne_bound (task : Task) (source : SourceModule) (session : Session) (entry : IndexEntry)
    (written : Path) : (task.prepare source session).2 ≠ .error (.bound entry written) := by
  unfold prepare
  cases Language.choose? task.languages source.path with
  | none => simp [note]
  | some language =>
    cases task.dryRun with
    | true => simp
    | false =>
      rcases task.makeDirectory source session.disk with ⟨made, _ | error⟩
      · simp
      · simpa using task.refused_ne_bound source _ error entry written

theorem read_ne_bound (task : Task) (source : SourceModule) (language : Language) (session : Session)
    (entry : IndexEntry) (written : Path) :
    (task.read source language session).2 ≠ .error (.bound entry written) := by
  unfold read
  cases task.readSource source session.disk with
  | error error => simpa using task.refused_ne_bound source _ error entry written
  | ok bytes =>
    have hextract := task.extract_eq source language bytes
    cases hfunctions : language.functionsIn? bytes with
    | some functions =>
      rw [hfunctions] at hextract
      simpa only [hextract, Except.bind] using task.layOut_ne_bound source _ functions entry written
    | none =>
      rw [hfunctions] at hextract
      obtain ⟨diagnostic, hnoted⟩ := hextract
      simp [hnoted, Except.bind]

/-- A module is bound by its last step, when its text has an encoding and is written. -/
theorem laidOut_of_advance (hwrites : task.dryRun = false) {entry : IndexEntry} {written : Path}
    (h : (task.advance source session stage).2 = .finished (.bound entry written)) :
    stage = .finished (.bound entry written) ∨ ∃ layout, stage = .laidOut layout ∧
      entry = task.entry source layout ∧ (task.writeContent source layout session.disk).2 = none ∧
        layout.isHalved = false := by
  cases stage with
  | waiting =>
    rw [advance_waiting_eq, afterPreparing_eq_finished] at h
    exact absurd h (task.prepare_ne_bound source session entry written)
  | prepared language =>
    rw [advance_prepared_eq, afterReading_eq_finished] at h
    exact absurd h (task.read_ne_bound source language session entry written)
  | laidOut layout =>
    rw [advance_laidOut_eq, write_eq hwrites, Stage.finished.injEq] at h
    refine .inr ⟨layout, rfl, ?_⟩
    cases hresult : (task.writeContent source layout session.disk).2 with
    | none =>
      rw [hresult, writing] at h
      cases hhalved : layout.isHalved with
      | true => simp [hhalved] at h
      | false =>
        rw [hhalved] at h
        exact ⟨(Outcome.bound.inj h).1.symm, rfl, rfl⟩
    | some error =>
      rw [hresult] at h
      exact absurd h (task.refused_ne_bound source _ _ entry written)
  | finished outcome => exact .inl h

/-- A module that is bound shows what was laid out of the functions of its source. -/
def Shown (task : Task) (start disk : Disk) (source : SourceModule) (stage : Stage) : Prop :=
  ∀ entry written, stage = .finished (.bound entry written) → ∃ functions layout mode,
    Language.extracted? task.languages start source.path = some functions ∧ functions ≠ [] ∧
      task.layOut source start functions = .ok layout ∧ entry = task.entry source layout ∧
      disk.find? (task.target source) = some (.file layout.content.toUTF8 mode)

/-- The bindings are in places of their own, the template is fixed, and the log file is neither the template nor a
source and in the place of no binding. -/
structure Beside (task : Task) (start : Disk) (log : List Location) (sources : List SourceModule) : Prop where
  current : start.HasCurrent
  template : task.TemplateFixed start
  logTemplate : ∀ location ∈ log, ¬ task.IsTemplate start location
  found : ∀ source ∈ sources, ∃ content mode, start.find? source.path = some (.file content mode)
  unread : ∀ source ∈ sources, ∀ other ∈ sources,
    start.place source.path ≠ start.place (task.target other)
  distinct : (sources.map fun source => start.place (task.target source)).Nodup
  logSource : ∀ source ∈ sources, start.place source.path ∉ log
  logBinding : ∀ source ∈ sources, ∀ functions,
    Language.extracted? task.languages start source.path = some functions → functions ≠ [] →
      start.place (task.target source) ∉ log

theorem Shown.of_changes {files through : Location → Prop} (h : task.Shown start disk source stage)
    (hchanges : Changes files through disk after)
    (hfile : ∀ functions, Language.extracted? task.languages start source.path = some functions →
      functions ≠ [] → ¬ files (disk.place (task.target source))) : task.Shown start after source stage := by
  intro entry written hstage
  obtain ⟨functions, layout, mode, hextracted, hne, hlayout, hentry, hfound⟩ := h entry written hstage
  exact ⟨functions, layout, mode, hextracted, hne, hlayout, hentry,
    hchanges.find?_eq_file (hfile functions hextracted hne) hfound⟩

namespace Beside

variable (h : task.Beside start log sources)
include h

theorem readAlike (hsource : source ∈ sources) :
    task.ReadAlike (task.SoFar start log sources) start source := by
  intro session hsofar
  refine readSource_of_changes (h.found source hsource) hsofar.changes ?_
  rintro (⟨other, hother, hplace⟩ | ⟨hlog, -⟩)
  · exact h.unread source hsource other hother hplace
  · exact h.logSource source hsource hlog

/-- Functions are laid out with the template of the start. -/
theorem layOut_eq {functions : List Rust.ExportedFunction} {layout : Layout}
    (hrendered : task.Rendered (task.SoFar start log sources) source functions layout) :
    task.layOut source start functions = .ok layout := by
  obtain ⟨session, hsofar, hlayout⟩ := hrendered
  have htemplate : task.template session.disk = task.template start := by
    refine h.template.template_eq h.current hsofar.changes fun location htemplate => ?_
    rintro (⟨other, -, hplace⟩ | ⟨hlog, -⟩)
    · exact target_ne_template htemplate other hplace
    · exact h.logTemplate location hlog htemplate
  rw [← layOut_congr htemplate]
  exact hlayout

theorem place_ne {index place : Nat} {other : SourceModule} (hne : index ≠ place)
    (hindex : sources[index]? = some source) (hplace : sources[place]? = some other) :
    start.place (task.target other) ≠ start.place (task.target source) := by
  intro heq
  have hmap (place : Nat) (source : SourceModule) (hthere : sources[place]? = some source) :
      (sources.map fun source => start.place (task.target source))[place]? =
        some (start.place (task.target source)) := by
    rw [List.getElem?_map, hthere, Option.map_some]
  have hfirst := hmap index source hindex
  have hsecond := hmap place other hplace
  rw [heq, ← hfirst] at hsecond
  have hbound := (List.getElem?_eq_some_iff.1 hfirst).1
  exact hne ((List.getElem?_inj hbound h.distinct).1 hsecond.symm)

/-- The step: a module that is bound by it shows its text. -/
theorem shown_advance (hwrites : task.dryRun = false) (hsource : source ∈ sources)
    (hsofar : task.SoFar start log sources session)
    (hreached : task.Reached (task.SoFar start log sources) source stage)
    (hshown : task.Shown start session.disk source stage) :
    task.Shown start (task.advance source session stage).1.disk source
      (task.advance source session stage).2 := by
  intro entry written hbound
  rcases laidOut_of_advance hwrites hbound with rfl | ⟨layout, rfl, rfl, hwritten, hwhole⟩
  · exact hshown entry written rfl
  cases hreached with
  | laidOut functions _ hmade hfunctions hlayout =>
    obtain ⟨hextracted, hne⟩ := hfunctions.extracted? (h.readAlike hsource)
    obtain ⟨mode, hfound⟩ := find?_writeContent (hsofar.lengthens.keeps.hasCurrent h.current) hwritten
    rw [Layout.bytes, hwhole, if_neg Bool.false_ne_true] at hfound
    refine ⟨functions, layout, mode, hextracted, hne, h.layOut_eq hlayout, rfl, ?_⟩
    have hkeeps := hsofar.lengthens.keeps.trans
      (task.writeContent_changes source (hsofar.lengthens.keeps.hasCurrent h.current) layout log
        (fun _ => True)).keeps
    have hlogged := task.noteWriting_changes source layout { session with
      disk := (task.writeContent source layout session.disk).1 } none
    rw [advance_laidOut_eq, write_eq hwrites, hwritten]
    refine hlogged.find?_eq_file ?_ hfound
    rintro ⟨hlog, -⟩
    have hlog : _ ∈ session.logLocations := hlog
    rw [hsofar.logged, hkeeps.place_eq] at hlog
    exact h.logBinding source hsource functions hextracted hne hlog

/-- What is known of the modules at every step: how far they have come, and what the bindings show. -/
theorem maintains (hwrites : task.dryRun = false) :
    task.Maintains sources (task.SoFar start log sources) fun disk source stage =>
      task.Reached (task.SoFar start log sources) source stage ∧ task.Shown start disk source stage := by
  refine ⟨fun source hsource session stage hsofar => hsofar.advance h.current hsource stage,
    fun source outcome session report hsofar => hsofar.takeUp source outcome report, ?_, ?_, ?_⟩
  · rintro source hsource session stage hsofar ⟨hreached, hshown⟩
    exact ⟨hreached.advance hsofar (hsofar.advance h.current hsource stage),
      h.shown_advance hwrites hsource hsofar hreached hshown⟩
  · rintro index place source other hne hindex hplace session stage reached hsofar ⟨hreached, hshown⟩
    have hkeeps := hsofar.lengthens.keeps
    refine ⟨hreached, hshown.of_changes (task.advance_changes source (hkeeps.hasCurrent h.current) stage) ?_⟩
    rintro functions hextracted hnonempty (hhere | ⟨hlog, -⟩)
    · rw [hkeeps.place_eq, hkeeps.place_eq] at hhere
      exact h.place_ne hne hindex hplace hhere
    · rw [hsofar.logged, hkeeps.place_eq] at hlog
      exact h.logBinding other (List.mem_of_getElem? hplace) functions hextracted hnonempty hlog
  · rintro other hother source outcome session report reached hsofar ⟨hreached, hshown⟩
    refine ⟨hreached, hshown.of_changes (task.takeUp_onlyLogged source outcome session report) ?_⟩
    rintro functions hextracted hnonempty ⟨hlog, -⟩
    rw [hsofar.logged, hsofar.lengthens.keeps.place_eq] at hlog
    exact h.logBinding other hother functions hextracted hnonempty hlog

/-- The run: work that ends without an error has bound every module whose source exports functions. -/
theorem work_shown (hwrites : task.dryRun = false)
    (hlanguage : ∀ source ∈ sources, Language.choose? task.languages source.path ≠ none)
    (hsofar : task.SoFar start log sources session) {workers : Int} {events : List Event}
    (hwork : (task.work workers events sources session report).2 = .ok final)
    (herrors : final.errors = []) :
    ∀ source ∈ sources, ∃ functions,
      Language.extracted? task.languages start source.path = some functions ∧
      (functions = [] ∨ ∃ layout mode, functions ≠ [] ∧ task.layOut source start functions = .ok layout ∧
        (task.work workers events sources session report).1.disk.find? (task.target source) =
          some (.file layout.content.toUTF8 mode) ∧
        task.entry source layout ∈ final.entries) := by
  obtain ⟨-, steps, hreport, hholds, hall⟩ := (h.maintains hwrites).work hsofar
    (fun source _ => ⟨.waiting, fun entry written hstage => absurd hstage nofun⟩) workers events report
  rw [hwork] at hreport
  intro source hsource
  rw [← hall ⟨final, hreport.symm⟩] at hsource
  obtain ⟨⟨source, outcome⟩, hstep, rfl⟩ := List.mem_map.1 hsource
  obtain ⟨hmem, hreached, hshown⟩ := hholds _ hstep
  dsimp only at hmem hreached hshown ⊢
  rcases (reportedAll_mem hreport.symm).2.2 _ hstep with ⟨entry, written, rfl, hentry⟩ |
    ⟨diagnostic, rfl, hdiagnostic⟩
  · obtain ⟨functions, layout, mode, hextracted, hne, hlayout, rfl, hfound⟩ := hshown entry written rfl
    exact ⟨functions, hextracted, .inr ⟨layout, mode, hne, hlayout, hfound, hentry⟩⟩
  · refine ⟨[], ?_, .inl rfl⟩
    cases hreached with
    | finished _ hends =>
      refine hends.extracted?_of_noted (fun hsevere => ?_) (hlanguage source hmem) (h.readAlike hmem)
      have herror : diagnostic ∈ final.errors :=
        List.mem_filter.2 ⟨hdiagnostic, by rw [hsevere]; decide⟩
      rw [herrors] at herror
      exact absurd herror List.not_mem_nil

end Beside

end Task

/-! ### The index -/

section index

variable {session : Session} {report final : Report} {faults : Index.Faults} {update : Index.Update}

/-- An index that is updated holds the merged text, and after it what the journal adds to a log file that is in the
same place. The lines of the merged text are then ended, if those of the index were when it was read. -/
theorem find?_conclude_index (hcurrent : session.disk.HasCurrent) (hwrites : report.dryRun = false)
    (hupdate : (indexUpdate faults session.disk report).2 = .ok update)
    (hended : session.disk.place report.indexPath ∈ session.logLocations → ∀ bytes,
      session.disk.read report.indexPath = .ok bytes → Text.EndsLine bytes) :
    ∃ prior lines mode,
      (conclude faults session report).1.disk.find? report.indexPath =
        some (.file (Index.merge prior (report.entries.map IndexEntry.importPath) ++ lines).toUTF8 mode) ∧
      (lines = "" ∨ (Index.merge prior (report.entries.map IndexEntry.importPath)).toList.getLast? =
        some '\n') := by
  obtain ⟨noted, messages, hdisk, hlog, hnoted⟩ := conclude_noted faults session report
  have hchanges := Index.update_changes hcurrent report.indexPath (report.entries.map IndexEntry.importPath)
    report.dryRun faults
  rw [indexUpdate, hwrites] at hupdate hdisk
  rw [hwrites] at hchanges
  obtain ⟨prior, mode, hprior, hfound⟩ := Index.update_find? hcurrent hupdate
  rw [← hdisk] at hfound hchanges
  rw [hnoted]
  by_cases hsame : session.disk.place report.indexPath ∈ session.logLocations
  · obtain ⟨later, hlater, hnone | ⟨lines, -, rfl⟩⟩ :=
      (noted.noteAll_lengthens messages : Lengthens (fun _ => False) _ _).find?_eq_file hfound
    · exact hnone.elim
    refine ⟨prior, lines, mode, hlater.trans ?_, .inr ?_⟩
    · exact congrArg (fun bytes => some (Entry.file bytes mode)) String.toByteArray_append.symm
    obtain ⟨added, hwhole, hadded⟩ := Index.merge_eq_append prior (report.entries.map IndexEntry.importPath)
    rcases hwhole with rfl | hlast
    · -- nothing is added, so the text was there, and its lines are ended
      rw [String.append_empty] at hadded
      cases hread : session.disk.read report.indexPath with
      | error error =>
        rw [Index.eq_empty_of_readText hread hprior] at hadded
        exact absurd hadded (Index.merge_empty_ne _)
      | ok bytes =>
        have hlines := hended hsame bytes hread
        rwa [← Index.toUTF8_of_decode (Index.decode_of_readText hread hprior), Text.endsLine_toUTF8_iff,
          ← hadded] at hlines
    · rw [hadded, String.toList_append, List.getLast?_append, hlast, Option.some_or]
  · refine ⟨prior, "", mode, ?_, .inl rfl⟩
    rw [String.append_empty]
    refine (noted.noteAll_changes messages).find?_eq_file ?_ hfound
    rintro ⟨hthere, -⟩
    rw [hchanges.keeps.place_eq] at hthere
    exact hsame (hlog _ hthere)

/-- Such an index has the helper and the lines of all exports. -/
theorem mem_splitLines_index {prior lines : String} {importPaths : List String}
    (hpaths : ∀ importPath ∈ importPaths, Text.IsLine importPath.toList)
    (hended : lines = "" ∨ (Index.merge prior importPaths).toList.getLast? = some '\n') :
    Index.HasHelper (Index.merge prior importPaths ++ lines) ∧ ∀ importPath ∈ importPaths,
      Index.exportLine importPath ∈ Text.splitLines (Index.merge prior importPaths ++ lines) := by
  have hsplit : ∃ rest, Text.splitLines (Index.merge prior importPaths ++ lines) =
      Text.splitLines (Index.merge prior importPaths) ++ rest := by
    rcases hended with rfl | hlast
    · exact ⟨[], by rw [String.append_empty, List.append_nil]⟩
    · exact ⟨_, Text.splitLines_append_of_ended hlast lines⟩
  obtain ⟨rest, hsplit⟩ := hsplit
  constructor
  · rw [Index.HasHelper, hsplit, List.any_append, Bool.or_eq_true]
    exact .inl (Index.hasHelper_merge prior hpaths)
  · intro importPath hmem
    rw [hsplit]
    exact List.mem_append_left rest ((Index.exportLine_mem_merge_iff prior hmem).2 (hpaths importPath hmem))

end index

/-! ### The run -/

/-- All of the work is done: every module whose source exports functions has the binding that is laid out of them,
and its export line in the index, which has the helper. -/
def Task.IsComplete (task : Task) (sources : List SourceModule) (start after : Disk) : Prop :=
  ∃ text mode, after.find? task.config.indexPath = some (.file text.toUTF8 mode) ∧ Index.HasHelper text ∧
    ∀ source ∈ sources, ∃ functions,
      Language.extracted? task.languages start source.path = some functions ∧
      (functions = [] ∨ ∃ layout mode, task.layOut source start functions = .ok layout ∧
        after.find? (task.target source) = some (.file layout.content.toUTF8 mode) ∧
        Index.exportLine (source.importPath task.config.outputDirectory) ∈ Text.splitLines text)

/-- What a complete run shows of a module whose source exports functions. -/
theorem Task.IsComplete.read_target {task : Task} {sources : List SourceModule} {start after : Disk}
    {source : SourceModule} {functions : List Rust.ExportedFunction} (h : task.IsComplete sources start after)
    (hsource : source ∈ sources)
    (hextracted : Language.extracted? task.languages start source.path = some functions) (hne : functions ≠ []) :
    (after.read (task.target source)).toOption =
      (task.layOut source start functions).toOption.map fun layout => layout.content.toUTF8 := by
  obtain ⟨text, mode, -, -, hall⟩ := h
  obtain ⟨found, hfound, hnone | ⟨layout, bits, hlayout, hbinding, -⟩⟩ := hall source hsource
  · rw [hextracted, Option.some.injEq] at hfound
    exact absurd (hfound.trans hnone) hne
  · rw [hextracted, Option.some.injEq] at hfound
    rw [Disk.read_eq_ok_iff.2 ⟨bits, hbinding⟩, hfound, hlayout]
    rfl

section generateModules

variable {task : Task} {start : Disk} {log : List Location} {sources : List SourceModule} {source : SourceModule}
  {session worked : Session} {report final : Report}

/-- A file whose lines are ended when the work on the modules begins has ended lines when it is done, if no binding
is in its place. -/
theorem Task.SoFar.endsLine (h : task.SoFar start log sources session) (hcurrent : start.HasCurrent)
    {location : Location} (hapart : ∀ source ∈ sources, start.place (task.target source) ≠ location)
    {content : ByteArray} {mode : Nat} (hsight : session.disk.tree.sight? location = some (.file content mode))
    (hended : Text.EndsLine content) (workers : Int) (events : List Event) (report : Report) :
    ∃ later, (task.work workers events sources session report).1.disk.tree.sight? location =
      some (.file later mode) ∧ Text.EndsLine later := by
  have hbegin : task.SoFar session.disk log sources session := ⟨h.logged, .refl _ _ _, .refl _ _⟩
  have hworked := hbegin.work (h.lengthens.keeps.hasCurrent hcurrent) workers events report
  refine hworked.lengthens.endsLine ?_ hsight hended
  rintro ⟨source, hsource, hplace⟩
  rw [h.lengthens.keeps.place_eq] at hplace
  exact hapart source hsource hplace.symm

/-- A binding outlasts the end of the run, if it is in the place neither of the index nor of the log file. -/
theorem find?_conclude_binding (hcurrent : worked.disk.HasCurrent) (faults : Index.Faults) (report : Report)
    {path : Path} (hindex : worked.disk.place path ≠ worked.disk.place report.indexPath)
    (hlog : worked.disk.place path ∉ worked.logLocations) {content : ByteArray} {mode : Nat}
    (hfound : worked.disk.find? path = some (.file content mode)) :
    (conclude faults worked report).1.disk.find? path = some (.file content mode) := by
  have hupdated := Index.update_changes hcurrent report.indexPath (report.entries.map IndexEntry.importPath)
    report.dryRun faults
  have hlogged := conclude_logged faults worked report
  rw [indexUpdate] at hlogged
  refine hlogged.find?_eq_file ?_ (hupdated.find?_eq_file hindex hfound)
  rintro ⟨hthere, -⟩
  rw [hupdated.keeps.place_eq] at hthere
  exact hlog hthere

/-- The work on the modules and the update of the index: where no error is told, all of the work is done. -/
theorem Task.Beside.generateModules_complete (h : task.Beside start log sources) (hwrites : task.dryRun = false)
    (hlanguage : ∀ source ∈ sources, Language.choose? task.languages source.path ≠ none)
    (hindex : ∀ source ∈ sources, start.place (task.target source) ≠ start.place task.config.indexPath)
    (hlines : ∀ source ∈ sources, Text.IsLine (source.importPath task.config.outputDirectory).toList)
    (hsofar : task.SoFar start log sources session)
    (hended : start.place task.config.indexPath ∈ log → ∃ content mode,
      session.disk.tree.sight? (start.place task.config.indexPath) = some (.file content mode) ∧
        Text.EndsLine content)
    {workers : Int} {events : List Event}
    (hrun : (generateModules task workers events sources session).2 = .ok final) (hdone : final.aborted = false)
    (herrors : final.errors = []) :
    task.IsComplete sources start (generateModules task workers events sources session).1.disk := by
  have hworked := hsofar.work h.current workers events task.firstReport
  obtain ⟨worked, report, hresult, hconclude⟩ := generateModules_ok hrun hdone
  rw [hconclude] at hrun ⊢
  obtain ⟨update, hupdate, rfl⟩ := conclude_ok hrun hdone
  have hwork : (task.work workers events sources session task.firstReport).2 = .ok report := by rw [hresult]
  have hshown := h.work_shown hwrites hlanguage hsofar hwork herrors
  rw [hresult] at hworked hshown
  have hkeeps := hworked.lengthens.keeps
  have hcurrent := hkeeps.hasCurrent h.current
  obtain ⟨hindexPath, hdry⟩ := Task.work_settings hwork
  have hindexPath : report.indexPath = task.config.indexPath := hindexPath
  have hdry : report.dryRun = false := hdry.trans hwrites
  -- an index that is the log file too holds whole lines when it is read
  have hread : worked.disk.place report.indexPath ∈ worked.logLocations → ∀ bytes,
      worked.disk.read report.indexPath = .ok bytes → Text.EndsLine bytes := by
    intro hlog bytes hread
    rw [hindexPath] at hlog hread
    rw [hkeeps.place_eq, hworked.logged] at hlog
    obtain ⟨content, mode, hsight, hline⟩ := hended hlog
    obtain ⟨later, hlater, hline⟩ :=
      hsofar.endsLine h.current hindex hsight hline workers events task.firstReport
    obtain ⟨old, hthere⟩ := Disk.read_eq_ok_iff.1 hread
    have hbytes := sight?_of_find? hthere
    rw [hresult] at hlater
    rw [hkeeps.place_eq, hlater, Option.some.injEq, Sight.file.injEq] at hbytes
    exact hbytes.1 ▸ hline
  obtain ⟨prior, lines, mode, hfound, hlast⟩ := find?_conclude_index hcurrent hdry hupdate hread
  obtain ⟨hhelper, hexports⟩ := mem_splitLines_index
    (Task.forall_importPath (fun importPath => Text.IsLine importPath.toList) hwork hlines) hlast
  rw [hindexPath] at hfound
  refine ⟨_, mode, hfound, hhelper, fun source hsource => ?_⟩
  obtain ⟨functions, hextracted, hnone | ⟨layout, mode, hne, hlayout, hbinding, hentry⟩⟩ := hshown source hsource
  · exact ⟨functions, hextracted, .inl hnone⟩
  refine ⟨functions, hextracted, .inr ⟨layout, mode, hlayout, ?_, hexports _ (List.mem_map_of_mem hentry)⟩⟩
  refine find?_conclude_binding hcurrent task.faults.index report ?_ ?_ hbinding
  · rw [hindexPath, hkeeps.place_eq, hkeeps.place_eq]
    exact hindex source hsource
  · rw [hworked.logged, hkeeps.place_eq]
    exact h.logBinding source hsource functions hextracted hne

end generateModules

section generate

variable {session : Session} {request : Request} {circumstances : Circumstances} {config : Config}
  {sources : List SourceModule} {report final : Report}

/-- Every binding has a place of its own beside the index and an import path on one line, and the names of the sources
are more than a suffix. The template has its place too: its path goes down only, or it leads somewhere already. -/
structure OwnPlaces (config : Config) (sources : List SourceModule) (disk : Disk) : Prop where
  distinct : (sources.map fun source => disk.place (source.bindingPath config.outputRoot)).Nodup
  index : ∀ source ∈ sources, disk.place (source.bindingPath config.outputRoot) ≠ disk.place config.indexPath
  stem : ∀ source ∈ sources, Text.lower source.path.name ≠ ".rs"
  line : ∀ source ∈ sources, Text.IsLine (source.importPath config.outputDirectory).toList
  template : ∀ directory, config.templatesDirectory = some directory →
    ".." ∉ directory.parts ∨ ∃ location, disk.locate (directory.child Template.fileName) = .ok location

/-- The log file is neither the template nor a source, and not in the place of the binding of a module that exports
functions. -/
structure LogBeside (config : Config) (sources : List SourceModule) (session : Session) : Prop where
  source : ∀ source ∈ sources, session.disk.place source.path ∉ session.logLocations
  binding : ∀ source ∈ sources, ∀ functions,
    Language.extracted? Language.all session.disk source.path = some functions → functions ≠ [] →
      session.disk.place (source.bindingPath config.outputRoot) ∉ session.logLocations
  template : ∀ directory, config.templatesDirectory = some directory →
    session.disk.place (directory.child Template.fileName) ∉ session.logLocations

/-- A run that makes a report has begun. -/
theorem begins_of_generate_ok (h : (generate session request circumstances).2 = .ok report) :
    ∃ config sources, Begins session request config sources := by
  rcases begins_or_stops session request with hbegins | ⟨told, error, hstops⟩
  · exact hbegins
  · rw [hstops request rfl] at h
    exact absurd h nofun

/-- Every module of a scan is in a language, if its name is more than a suffix. -/
theorem Begins.choose?_ne_none (h : Begins session request config sources)
    (hnamed : session.disk.tree.isNamed = true) {source : SourceModule} (hsource : source ∈ sources)
    (hstem : Text.lower source.path.name ≠ ".rs") : Language.choose? Language.all source.path ≠ none := by
  obtain ⟨name, hpath, -, -, -, hsuffix⟩ := scan_mem hnamed h.scan hsource
  rw [← show source.path.name = name by rw [hpath, Path.name_child]] at hsuffix
  rw [choose?_of_hasSuffix hsuffix hstem]
  simp

theorem Begins.beside (h : Begins session request config sources)
    (hproper : session.disk.tree.isProper = true) (hcurrent : session.disk.HasCurrent)
    (hplaces : OwnPlaces config sources session.disk) (hlog : LogBeside config sources session)
    (circumstances : Circumstances) :
    (taskFor request circumstances config).Beside session.disk session.logLocations sources where
  current := hcurrent
  template := hplaces.template
  logTemplate := by
    rintro location hthere ⟨directory, hdirectory, rfl⟩
    exact hlog.template directory hdirectory hthere
  found := fun _ hsource => scan_find? hproper hcurrent h.scan hsource
  unread := fun _ hsource other _ =>
    place_path_ne (Tree.isNamed_of_isProper hproper) h.scan hsource other config.outputRoot
  distinct := hplaces.distinct
  logSource := hlog.source
  logBinding := hlog.binding

/-- A log file in the place of the index ends in a whole line once the run has begun. -/
theorem endsLine_begun (hlogging : session.IsLogging) {location : Location}
    (hlog : location ∈ session.logLocations) (request : Request) (sources : List SourceModule) :
    ∃ content mode, (begun session request sources).disk.tree.sight? location = some (.file content mode) ∧
      Text.EndsLine content := by
  let message : Message :=
    ⟨.info, journalName, s!"Starting generation run for {(request.path.absolute session.disk.current).toText}"⟩
  have hlevel : message.level = .info := rfl
  obtain ⟨front, mode, htold⟩ := hlogging.note hlog hlevel
  have hline := Session.getLast?_fileLine session.journal.clock message
  have hlonger : Lengthens (fun _ => False) (session.note message).disk (begun session request sources).disk :=
    Session.note_lengthens _ _
  obtain ⟨later, hlater, hended⟩ := hlonger.endsLine not_false htold
    (.append front ((Text.endsLine_toUTF8_iff _).2 hline))
  exact ⟨later, mode, hlater, hended⟩

/-- A run that succeeds is complete, wherever the medium fails and however its steps interleave: what goes wrong
is told. -/
theorem generate_complete (hproper : session.disk.tree.isProper = true) (hcurrent : session.disk.HasCurrent)
    (hlogging : session.IsLogging) (hbegins : Begins session request config sources)
    (hwrites : request.dryRun = false)
    (hplaces : OwnPlaces config sources session.disk) (hlog : LogBeside config sources session)
    (hrun : (generate session request circumstances).2 = .ok final) (hdone : final.aborted = false)
    (herrors : final.errors = []) :
    (taskFor request circumstances config).IsComplete sources session.disk
      (generate session request circumstances).1.disk := by
  have hnamed := Tree.isNamed_of_isProper hproper
  rw [hbegins.generate_eq] at hrun ⊢
  refine (hbegins.beside hproper hcurrent hplaces hlog circumstances).generateModules_complete hwrites
    (fun source hsource => hbegins.choose?_ne_none hnamed hsource (hplaces.stem source hsource)) hplaces.index
    hplaces.line (begun_soFar session request circumstances config sources) (fun hlog => ?_) hrun hdone herrors
  exact endsLine_begun hlogging hlog request sources

end generate

end Generation

end FfiBindings
