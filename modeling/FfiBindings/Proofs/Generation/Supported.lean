import FfiBindings.Proofs.Generation.Accounting
import FfiBindings.Proofs.Source.Suffix

/-!
Files that are found and in no language. A scan takes a file by the end of its name, a language by the suffix of
its path, and a name that is nothing but a suffix has none: so a file is found that no language is there for
exactly if its name is `.rs` in some letter case (`choose?_of_mem_scan`). A module gets the diagnostic for that
where there is no language for it and nowhere else (`KnowsLanguage`, `Ends.choose?_eq_none`), so a report has
it for these files alone, and for all of them unless the run is aborted (`generate_languages`). The way out is
not unreachable (`found_without_language`).
-/

set_option autoImplicit false
set_option relaxedAutoImplicit false

namespace FfiBindings

/-! ### What is found -/

section

variable {disk : Disk} {selection : Selection} {root : Path} {sourceDirectory : String}
  {sources : List SourceModule} {source : SourceModule}

/-- Every module is named as a source, whatever the disk is like. -/
theorem hasSuffix_of_mem_scan (h : scan disk selection root sourceDirectory = .ok sources)
    (hsource : source ∈ sources) : selection.hasSuffix source.path.name = true := by
  obtain ⟨-, ⟨-, rfl⟩ | ⟨tree, relative, -, -, rfl⟩⟩ := scan_eq_ok_cases h
  · exact absurd hsource List.not_mem_nil
  · rw [modulesIn, List.mem_mergeSort, List.mem_map] at hsource
    obtain ⟨⟨directory, name⟩, hwalk, rfl⟩ := hsource
    dsimp only
    rw [moduleAt_concat, Path.name_child]
    obtain ⟨-, -, -, -, hsuffix⟩ := Selection.mem_walk Tree.goesDown_true trivial hwalk
    exact hsuffix

end

/-- A name that is nothing but a source suffix has no suffix. -/
theorem suffix_of_lower_name {path : Path} (h : Text.lower path.name = ".rs") : path.suffix = "" := by
  have hletters : Text.lowerAfter [] path.name.toList = [] ++ ['.', 'r', 's'] := by
    have htoList := congrArg String.toList h
    rwa [Text.lower, String.toList_ofList] at htoList
  obtain ⟨head, a, b, c, hname, hhead, ⟨hasciiA, ha⟩, ⟨-, hb⟩, -, hc⟩ := Text.suffix_of_lower hletters
  obtain rfl := hhead.2 rfl
  obtain rfl := Text.eq_dot_of_lowerChar hasciiA ha
  have hfree : '.' ∉ [b, c] := by
    rintro hmem
    rcases List.mem_pair.1 hmem with rfl | rfl
    · exact absurd hb (by decide)
    · exact absurd hc (by decide)
  rw [Path.suffix, hname, Path.splitSuffix_of_dot hfree]
  rfl

/-- A module that a scan finds is in a language, unless its name is nothing but a source suffix. -/
theorem choose?_of_mem_scan {disk : Disk} {root : Path} {sourceDirectory : String} {excluded : List String}
    {sources : List SourceModule} {source : SourceModule}
    (h : scan disk (.of (Language.all.flatMap Language.suffixes) excluded) root sourceDirectory = .ok sources)
    (hsource : source ∈ sources) : Language.choose? Language.all source.path =
      if Text.lower source.path.name = ".rs" then none else some .rust := by
  split
  · rename_i hname
    rw [Language.choose?, Language.all, List.find?_cons_of_neg, List.find?_nil]
    rw [Language.supports, suffix_of_lower_name hname]
    decide
  · exact choose?_of_hasSuffix (hasSuffix_of_mem_scan h hsource) ‹_›

namespace Generation

open Disk

/-- What a run says of a file that no language is there for. -/
def noLanguageMessage : String := "no extractor supports this file type"

theorem head?_append {front : String} {c : Char} (h : front.toList.head? = some c) (back : String) :
    (front ++ back).toList.head? = some c := by
  rw [String.toList_append, List.head?_append, h, Option.some_or]

/-- The message is told from others by its first letter. -/
theorem ne_noLanguageMessage {text : String} {c : Char} (h : text.toList.head? = some c) (hc : c ≠ 'n') :
    text ≠ noLanguageMessage := by
  rintro rfl
  exact hc (Option.some.inj h).symm

namespace Task

variable {task : Task} {source : SourceModule} {session : Session} {passed : Session → Prop}

/-! ### What is said of a module -/

/-- The work on a module that no language is there for ends with its first step, and says so. -/
def KnowsLanguage (task : Task) (source : SourceModule) : Stage → Prop
  | .waiting => True
  | .prepared _ | .laidOut _ => Language.choose? task.languages source.path ≠ none
  | .finished outcome => Language.choose? task.languages source.path = none →
    outcome = task.note source .warning noLanguageMessage

/-- The step. -/
theorem KnowsLanguage.advance {stage : Stage} (h : task.KnowsLanguage source stage) (session : Session) :
    task.KnowsLanguage source (task.advance source session stage).2 := by
  cases stage with
  | waiting =>
    rw [advance_waiting_eq]
    cases hlanguage : Language.choose? task.languages source.path with
    | none =>
      simp only [prepare, hlanguage]
      exact fun _ => rfl
    | some language =>
      have hknown : Language.choose? task.languages source.path ≠ none := by simp [hlanguage]
      rcases (task.prepare source session).2 with outcome | language
      · exact fun hnone => absurd hnone hknown
      · exact hknown
  | prepared language =>
    rw [advance_prepared_eq]
    rcases (task.read source language session).2 with outcome | layout
    · exact fun hnone => absurd hnone h
    · exact h
  | laidOut layout =>
    rw [advance_laidOut_eq]
    exact fun hnone => absurd hnone h
  | finished outcome => exact h

/-- What is said where the files refuse begins with what was attempted. -/
theorem refused_ne_note {attempt : String} (h : attempt.toList.head? = some 'c') (error : FileError)
    (severity : Severity) :
    task.refused source attempt error ≠ task.note source severity noLanguageMessage := by
  have hmessage (rest : String) : attempt ++ ": " ++ rest ≠ noLanguageMessage := by
    rw [String.append_assoc]
    exact ne_noLanguageMessage (head?_append h _) (by decide)
  intro heq
  cases error with
  | nullInPath => exact nomatch heq
  | refused refusal path => exact hmessage _ (Diagnostic.mk.inj (Outcome.noted.inj heq)).2.2
  | failed message => exact hmessage _ (Diagnostic.mk.inj (Outcome.noted.inj heq)).2.2

/-- Where a module is said to be in no language, it is in none. -/
theorem Ends.choose?_eq_none {severity : Severity}
    (h : task.Ends passed source (task.note source severity noLanguageMessage)) :
    severity = .warning ∧ Language.choose? task.languages source.path = none := by
  generalize houtcome : task.note source severity noLanguageMessage = outcome at h
  have hnote {other : Severity} {message : String} (heq : task.note source severity noLanguageMessage =
      task.note source other message) : severity = other ∧ message = noLanguageMessage := by
    obtain ⟨hseverity, -, hmessage⟩ := Diagnostic.mk.inj (Outcome.noted.inj heq)
    exact ⟨hseverity, hmessage.symm⟩
  cases h with
  | noLanguage hlanguage => exact ⟨(hnote houtcome).1, hlanguage⟩
  | notMade => exact absurd houtcome.symm (refused_ne_note (head?_append rfl _) _ _)
  | notRead => exact absurd houtcome.symm (refused_ne_note rfl _ _)
  | notWritten => exact absurd houtcome.symm (refused_ne_note (head?_append rfl _) _ _)
  | noText => exact absurd (hnote houtcome).2 (ne_noLanguageMessage (head?_append rfl _) (by decide))
  | notParsed => exact absurd (hnote houtcome).2 (ne_noLanguageMessage (head?_append rfl _) (by decide))
  | empty => exact absurd (hnote houtcome).2 (by decide)
  | unsupported => exact nomatch houtcome
  | notRendered => exact nomatch houtcome
  | notEncoded => exact nomatch houtcome
  | bound => exact nomatch houtcome

/-! ### What a report says -/

/-- What a report says of a module that is in no language. -/
def noLanguage (task : Task) (source : SourceModule) : Diagnostic :=
  ⟨.warning, displayed source.path task.config.root, noLanguageMessage⟩

theorem Accounted.eq_noLanguage {modules : List SourceModule} {entries : List IndexEntry} {written : List Path}
    {diagnostics : List Diagnostic} (h : task.Accounted passed modules entries written diagnostics)
    {diagnostic : Diagnostic} (hmem : diagnostic ∈ diagnostics) (hmessage : diagnostic.message = noLanguageMessage) :
    ∃ source ∈ modules, Language.choose? task.languages source.path = none ∧
      diagnostic = task.noLanguage source := by
  induction h with
  | nil => exact absurd hmem List.not_mem_nil
  | bound layout hends hrest ih =>
    obtain ⟨source, hsource, htold⟩ := ih hmem
    exact ⟨source, List.mem_cons_of_mem _ hsource, htold⟩
  | @noted source modules entries written diagnostics severity message hends hrest ih =>
    rcases List.mem_cons.1 hmem with rfl | hlater
    · obtain rfl : message = noLanguageMessage := hmessage
      obtain ⟨rfl, hnone⟩ := hends.choose?_eq_none
      exact ⟨source, List.mem_cons_self, hnone, rfl⟩
    · obtain ⟨source, hsource, htold⟩ := ih hlater
      exact ⟨source, List.mem_cons_of_mem _ hsource, htold⟩

/-- The run: work that is not halted reports every module that is in no language. -/
theorem work_noLanguage {workers : Int} {events : List Event} {sources : List SourceModule} {start final : Report}
    (h : (task.work workers events sources session start).2 = .ok final) (hsource : source ∈ sources)
    (hnone : Language.choose? task.languages source.path = none) :
    task.noLanguage source ∈ final.diagnostics := by
  obtain ⟨steps, hreport, -, hknown, hall⟩ := @work_reported task sources task.KnowsLanguage workers events
    session start (fun _ _ => trivial) fun _ passed _ _ _ hstage => hstage.advance passed
  rw [hreport] at h
  rw [← hall ⟨final, h⟩, List.mem_map] at hsource
  obtain ⟨step, hstep, rfl⟩ := hsource
  have houtcome : step.2 = task.note step.1 .warning noLanguageMessage := hknown step hstep hnone
  obtain ⟨-, -, hmem⟩ := reportedAll_mem h
  rcases hmem step hstep with ⟨entry, written, hbound, -⟩ | ⟨diagnostic, hnoted, hthere⟩
  · exact nomatch houtcome.symm.trans hbound
  · obtain rfl := Outcome.noted.inj (houtcome.symm.trans hnoted)
    exact hthere

end Task

/-! ### The run -/

variable {session after : Session} {request : Request} {circumstances : Circumstances} {config : Config}
  {sources : List SourceModule} {source : SourceModule} {report : Report}

/-- What a run says besides what its modules bring is of the platform or of the index. -/
theorem Begins.exists_accounted (h : Begins session request config sources)
    (hrun : generate session request circumstances = (after, .ok report)) :
    ∃ modules entries written diagnostics, modules <+: sources ∧
      (taskFor request circumstances config).Accounted
        (PassedBy session request circumstances config sources) modules entries written diagnostics ∧
      ∀ diagnostic ∈ report.diagnostics, diagnostic.message = noLanguageMessage → diagnostic ∈ diagnostics := by
  have hreport := h.generate_snd circumstances
  rw [hrun, worked_eq] at hreport
  obtain ⟨modules, entries, written, diagnostics, haccounted, ⟨hmodules, hwork⟩ |
    ⟨source, error, hbefore, -, hwork⟩ | ⟨source, error, -, -, hwork⟩⟩ :=
    (taskFor request circumstances config).work_accounted
      (request.workers.getD config.workers) circumstances.events sources (begun session request sources)
      (taskFor request circumstances config).firstReport
  · rw [hwork] at hreport
    refine ⟨modules, entries, written, diagnostics, hmodules ▸ List.prefix_refl _, haccounted, ?_⟩
    rcases indexReport_cases hreport.symm with ⟨update, -, rfl⟩ | ⟨error, -, rfl⟩
    · exact fun diagnostic hmem _ => hmem
    · rintro diagnostic hmem hmessage
      refine (List.mem_append.1 hmem).resolve_right fun hindex => ?_
      rw [List.mem_singleton] at hindex
      rw [hindex] at hmessage
      exact ne_noLanguageMessage (head?_append rfl _) (by decide) hmessage
  · rw [hwork] at hreport
    obtain rfl := Except.ok.inj hreport
    refine ⟨modules, entries, written, diagnostics, (List.prefix_append _ _).trans hbefore, haccounted, ?_⟩
    rintro diagnostic hmem hmessage
    have hmem : diagnostic ∈ diagnostics ++ [⟨.error, displayed source.path config.root, error.message⟩] := hmem
    refine (List.mem_append.1 hmem).resolve_right fun hplatform => ?_
    rw [List.mem_singleton] at hplatform
    rw [hplatform] at hmessage
    exact ne_noLanguageMessage (head?_append rfl _) (by decide) hmessage
  · rw [hwork] at hreport
    exact nomatch hreport

/-- A run that is not aborted has worked on all its modules, and its report keeps what they brought. -/
theorem Begins.exists_worked (h : Begins session request config sources)
    (hrun : generate session request circumstances = (after, .ok report)) (hdone : report.aborted = false) :
    ∃ made, (worked session request circumstances config sources).2 = .ok made ∧
      report.diagnostics = made.diagnostics := by
  have hreport := h.generate_snd circumstances
  rw [hrun] at hreport
  cases hwork : (worked session request circumstances config sources).2 with
  | ok made =>
    rw [hwork] at hreport
    rcases indexReport_cases hreport.symm with ⟨update, -, rfl⟩ | ⟨error, -, rfl⟩
    · exact ⟨made, rfl, rfl⟩
    · exact nomatch hdone
  | error halt =>
    rw [hwork] at hreport
    cases halt with
    | stopped error => exact nomatch hreport
    | aborted final =>
      obtain rfl := Except.ok.inj hreport
      obtain ⟨steps, hsteps⟩ := (taskFor request circumstances config).exists_reportedAll
        (request.workers.getD config.workers) circumstances.events sources (begun session request sources)
        (taskFor request circumstances config).firstReport
      rw [worked_eq, hsteps] at hwork
      exact absurd (Task.reportedAll_aborted hwork) (by simp [hdone])

/-- A file that a scan finds is in a language, unless its name is nothing but a source suffix in some letter case.
What a run says of files in no language it says of these files alone, and of all of them unless it is aborted. -/
theorem generate_languages (disk : Disk) (session : Session) (request : Request) (circumstances : Circumstances) :
    (∀ (config : Config) (root : Path) (sourceDirectory : String) (sources : List SourceModule),
      scan disk (selectionOf config) root sourceDirectory = .ok sources → ∀ source ∈ sources,
        Language.choose? Language.all source.path =
          if Text.lower source.path.name = ".rs" then none else some .rust) ∧
    ∀ (config : Config) (sources : List SourceModule) (after : Session) (report : Report),
      Begins session request config sources → generate session request circumstances = (after, .ok report) →
        let task := taskFor request circumstances config
        (∀ diagnostic ∈ report.diagnostics, diagnostic.message = noLanguageMessage →
          ∃ source ∈ sources, Text.lower source.path.name = ".rs" ∧ diagnostic = task.noLanguage source) ∧
        (report.aborted = false → ∀ source ∈ sources, Text.lower source.path.name = ".rs" →
          task.noLanguage source ∈ report.diagnostics) := by
  refine ⟨fun config root sourceDirectory sources hscan source hsource => choose?_of_mem_scan hscan hsource, ?_⟩
  intro config sources after report hbegins hrun task
  have hnone {source : SourceModule} (hsource : source ∈ sources) :
      Language.choose? task.languages source.path = none ↔ Text.lower source.path.name = ".rs" := by
    rw [show task.languages = Language.all from rfl, choose?_of_mem_scan hbegins.scan hsource]
    split <;> simp_all
  refine ⟨fun diagnostic hmem hmessage => ?_, fun hdone source hsource hname => ?_⟩
  · obtain ⟨modules, entries, written, diagnostics, hprefix, haccounted, hmodules⟩ :=
      hbegins.exists_accounted hrun
    obtain ⟨source, hsource, hlanguage, htold⟩ :=
      haccounted.eq_noLanguage (hmodules diagnostic hmem hmessage) hmessage
    have hfound := hprefix.subset hsource
    exact ⟨source, hfound, (hnone hfound).1 hlanguage, htold⟩
  · obtain ⟨made, hwork, hdiagnostics⟩ := hbegins.exists_worked hrun hdone
    rw [hdiagnostics]
    exact Task.work_noLanguage hwork hsource ((hnone hsource).2 hname)

namespace Sample

/-- A library of a file that is named by a suffix in capitals, and of one that has more than the suffix. -/
def capitals : Session where
  disk := { tree := .directory "rs" (.file ".RS" sourceText.toUTF8 0o644
    (.file "a.Rs" sourceText.toUTF8 0o644 .empty)) .empty }

def suffixModule : SourceModule := ⟨⟨.root, ["rs", ".RS"]⟩, []⟩

def namedModule : SourceModule := ⟨⟨.root, ["rs", "a.Rs"]⟩, []⟩

end Sample

/-- The files of a library are found in any letter case, and a run names the one that is in no language. -/
theorem generate_languages_capitals :
    (Language.choose? Language.all Sample.suffixModule.path = none ∧
      Language.choose? Language.all Sample.namedModule.path = some .rust) ∧
    ∃ after report, generate Sample.capitals Sample.request {} = (after, .ok report) ∧
      ⟨.warning, "rs/.RS", noLanguageMessage⟩ ∈ report.diagnostics := by
  obtain ⟨hlanguages, hruns⟩ := generate_languages Sample.capitals.disk Sample.capitals Sample.request {}
  have hbegins : Begins Sample.capitals Sample.request Sample.settings [Sample.suffixModule, Sample.namedModule] :=
    .of_met (by decide +kernel)
  have hresult : (generate Sample.capitals Sample.request {}).2.map Report.aborted = .ok false := by
    rw [hbegins.generate_eq]
    decide +kernel
  have hsuffix : Text.lower Sample.suffixModule.path.name = ".rs" := by decide +kernel
  have hnamed : Text.lower Sample.namedModule.path.name ≠ ".rs" := by decide +kernel
  have hfound := hlanguages _ _ _ _ hbegins.scan
  refine ⟨⟨?_, ?_⟩, ?_⟩
  · rw [hfound Sample.suffixModule (by simp), if_pos hsuffix]
  · rw [hfound Sample.namedModule (by simp), if_neg hnamed]
  · rcases hrun : generate Sample.capitals Sample.request {} with ⟨after, error | report⟩
    · rw [hrun] at hresult
      exact nomatch hresult
    · rw [hrun] at hresult
      obtain ⟨-, htold⟩ := hruns _ _ _ _ hbegins hrun
      exact ⟨after, report, rfl, htold (Except.ok.inj hresult) Sample.suffixModule (by simp) hsuffix⟩

/-- So the suffixes of all languages do find files that no language is there for, and the run on such a file comes
to its warning. -/
theorem found_without_language :
    ¬ (∀ (disk : Disk) (config : Config) (root : Path) (sourceDirectory : String) (sources : List SourceModule),
      scan disk (selectionOf config) root sourceDirectory = .ok sources → ∀ source ∈ sources,
        Language.choose? Language.all source.path ≠ none) ∧
    (generate Sample.suffixOnly Sample.request {}).2.map Report.diagnostics =
      .ok [⟨.warning, "rs/.rs", noLanguageMessage⟩] := by
  have hbegins : Begins Sample.suffixOnly Sample.request Sample.settings [Sample.unnamed] :=
    .of_met (by decide +kernel)
  constructor
  · intro hall
    exact hall _ _ _ _ _ hbegins.scan Sample.unnamed List.mem_cons_self (by decide +kernel)
  · rw [hbegins.generate_eq]
    decide +kernel

end Generation

end FfiBindings
