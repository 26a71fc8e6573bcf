import FfiBindings.Proofs.Generation.Settled

/-!
Which modules halt a run. On a supported platform, with a template without errors and on a medium that fails
in its own ways only, no module halts it (`stageAt_quiet`), but where the directory for the bindings is no
path that a disk can have; then no module changes the disk at all (`diskAt_idle`).
-/

set_option autoImplicit false
set_option relaxedAutoImplicit false

namespace FfiBindings.Generation

open Disk

/-- Whether an outcome ends the run. -/
def Outcome.halts : Outcome → Bool
  | .bound _ _ | .noted _ => false
  | .unsupported _ | .stopped _ => true

namespace Task

variable (task : Task)

/-- No error of the medium is the one of a path that no disk can have. -/
structure MediumFails (source : SourceModule) : Prop where
  directory : ∀ error untried, task.faults.directory source = some (error, untried) →
    error ≠ .nullInPath ∧ hasNull (task.target source) = false
  read : task.faults.read source ≠ some .nullInPath
  write : ∀ error left, task.faults.write source = some (error, left) → error ≠ .nullInPath

/-- The platform is supported, and the template has a text for the functions of a module, of whole characters. -/
structure Renders (start : Disk) (source : SourceModule) : Prop where
  platform : ∃ platform, Platform.resolve task.plan.platform = .ok platform
  template : ∀ functions, task.functionsOf? start source = some functions → ∀ fault,
    task.layOut source start functions ≠ .error (.stopped (.template fault))
  encoded : task.config.binDirectoryHalved = false

/-- What is known of a module that halts no run. -/
def IsQuiet (source : SourceModule) : Stage → Prop
  | .waiting => True
  | .prepared language => Language.choose? task.languages source.path = some language
  | .laidOut layout => layout.isHalved = false
  | .finished outcome => outcome.halts = false

variable {task} {source : SourceModule} {start : Disk} {n : Nat}

theorem halts_refused (task : Task) (source : SourceModule) (attempt : String) {error : FileError}
    (herror : error ≠ .nullInPath) : (task.refused source attempt error).halts = false := by
  obtain ⟨diagnostic, hnoted⟩ := task.refused_eq_noted source attempt herror
  rw [hnoted]
  rfl

theorem readSource_ne_nullInPath (hmedium : task.MediumFails source) (hnull : hasNull source.path = false)
    (disk : Disk) : task.readSource source disk ≠ .error .nullInPath := by
  unfold readSource
  cases hfault : task.faults.read source with
  | some error =>
    intro heq
    rw [Except.error.inj heq] at hfault
    exact hmedium.read hfault
  | none => exact read_ne_nullInPath hnull

/-- The first step halts no run, if the path of the binding can be had. -/
theorem isQuiet_prepare (hsteady : task.Steady source start) (hmedium : task.MediumFails source)
    (hnull : task.dryRun = false → hasNull (task.target source) = false) (n : Nat) :
    task.IsQuiet source (task.advance source (task.aloneAt source start n).1 .waiting).2 := by
  have hthere := (diskAt_changes task source hsteady.current n).keeps.hasCurrent hsteady.current
  rw [advance_waiting_eq]
  cases hlanguage : Language.choose? task.languages source.path with
  | none =>
    simp only [prepare, hlanguage]
    rfl
  | some language =>
    by_cases hdry : task.dryRun = true
    · simp only [prepare, hlanguage, if_pos hdry]
      exact hlanguage
    · have hwrites : task.dryRun = false := by simpa using hdry
      rw [prepare_of_choose hwrites hlanguage]
      cases hfailure : ((task.aloneAt source start n).1.disk.makeDirectories (task.tried source)).2.or
          ((task.faults.directory source).map Prod.fst) with
      | none => exact hlanguage
      | some error =>
        refine task.halts_refused source _ ?_
        rintro rfl
        have htarget : IsPlain (task.target source) := ⟨hsteady.down, hnull hwrites⟩
        rcases Option.or_eq_some_iff.1 hfailure with hmade | ⟨-, hfault⟩
        · exact makeDirectories_ne_nullInPath (htarget.of_prefix (task.tried_prefix source)).noNull hmade
        · obtain ⟨⟨error, untried⟩, hdirectory, herror⟩ := Option.map_eq_some_iff.1 hfault
          exact (hmedium.directory error untried hdirectory).1 herror

/-- Reading and laying out a source halts no run, if its functions have a binding. -/
theorem isQuiet_read (hsteady : task.Steady source start) (hmedium : task.MediumFails source)
    (hrenders : task.Renders start source) {language : Language}
    (hlanguage : Language.choose? task.languages source.path = some language) (n : Nat) :
    task.IsQuiet source (task.advance source (task.aloneAt source start n).1 (.prepared language)).2 := by
  have hnull := readSource_ne_nullInPath hmedium hsteady.plain.noNull start
  have hkeeps := (diskAt_changes task source hsteady.current n).keeps
  rw [advance_prepared_eq]
  show task.IsQuiet source (afterReading (task.read source language (task.aloneAt source start n).1).2)
  rw [(sees_diskAt hsteady n).read_eq hsteady hkeeps (by simp [aloneAt_logLocations])]
  cases hbytes : task.readSource source start with
  | error error =>
    refine task.halts_refused source _ ?_
    rintro rfl
    exact hnull hbytes
  | ok bytes =>
    have hextract := task.extract_eq source language bytes
    have hfunctions : task.functionsOf? start source = language.functionsIn? bytes := by
      simp only [functionsOf?, hlanguage, hbytes]
    show task.IsQuiet source (afterReading ((task.extract source language bytes).2 >>= task.layOut source start))
    cases hknown : language.functionsIn? bytes with
    | none =>
      rw [hknown] at hextract
      obtain ⟨diagnostic, hnoted⟩ := hextract
      rw [hnoted]
      rfl
    | some functions =>
      rw [hknown] at hextract hfunctions
      obtain ⟨layout, hlayout⟩ := exists_layOut hrenders.platform (hrenders.template functions hfunctions)
      rw [hextract, show Except.ok functions >>= task.layOut source start = _ from hlayout]
      exact layOut_whole hlayout hrenders.encoded

/-- Writing halts no run. -/
theorem isQuiet_write (hsteady : task.Steady source start) (hmedium : task.MediumFails source)
    {layout : Layout} (hstage : task.stageAt source start n = .laidOut layout)
    (hwhole : layout.isHalved = false) :
    task.IsQuiet source (task.advance source (task.aloneAt source start n).1 (.laidOut layout)).2 := by
  have hthere : (task.aloneAt source start n).1.disk.HasCurrent :=
    (diskAt_changes task source hsteady.current n).keeps.hasCurrent hsteady.current
  rw [advance_laidOut_eq]
  by_cases hdry : task.dryRun = true
  · rw [write_dry hdry]
    rfl
  have hwrites : task.dryRun = false := by simpa using hdry
  have hparent : (task.aloneAt source start n).1.disk.isDirectory (task.target source).parent = true :=
    isDirectory_of_rank hsteady.current hwrites n (by rw [hstage]; simp [Stage.rank])
      (by rw [hstage]; simp [Stage.rank])
  have hlocate := locate_target hthere (hsteady.noNull (isDirectory_iff.1 hparent).1) hparent
  obtain ⟨hfailure, -⟩ := task.writeContent_spec source hthere hlocate layout
  rw [write_eq hwrites]
  show (task.writing source layout _).halts = false
  cases hresult : (task.writeContent source layout (task.aloneAt source start n).1.disk).2 with
  | none =>
    rw [writing, hwhole]
    rfl
  | some error =>
    refine task.halts_refused source _ ?_
    rintro rfl
    rw [hresult] at hfailure
    rcases Option.or_eq_some_iff.1 hfailure.symm with hfault | ⟨-, hdirectory⟩
    · obtain ⟨⟨error, left⟩, hwrite, herror⟩ := Option.map_eq_some_iff.1 hfault
      exact hmedium.write error left ((Option.filter_eq_some_iff.1 hwrite).1) herror
    · split at hdirectory
      · exact absurd (Option.some.inj hdirectory) (by simp)
      · exact absurd hdirectory (by simp)

/-- No step of a module halts the run. -/
theorem stageAt_quiet (hsteady : task.Steady source start) (hmedium : task.MediumFails source)
    (hrenders : task.Renders start source)
    (hnull : task.dryRun = false → hasNull (task.target source) = false) (n : Nat) :
    task.IsQuiet source (task.stageAt source start n) := by
  induction n with
  | zero => trivial
  | succ n ih =>
    have hnext : task.stageAt source start (n + 1) =
      (task.advance source (task.aloneAt source start n).1 (task.stageAt source start n)).2 := rfl
    rw [hnext]
    cases hstage : task.stageAt source start n with
    | waiting => exact isQuiet_prepare hsteady hmedium hnull n
    | prepared language =>
      rw [hstage] at ih
      exact isQuiet_read hsteady hmedium hrenders ih n
    | laidOut layout =>
      rw [hstage] at ih
      exact isQuiet_write hsteady hmedium hstage ih
    | finished outcome =>
      rw [hstage] at ih
      exact ih

theorem halts_alone (hsteady : task.Steady source start) (hmedium : task.MediumFails source)
    (hrenders : task.Renders start source)
    (hnull : task.dryRun = false → hasNull (task.target source) = false) :
    (task.alone source start).2.halts = false := by
  have hquiet := stageAt_quiet hsteady hmedium hrenders hnull 3
  rwa [stageAt, aloneAt_three] at hquiet

/-- Where the directory of the binding is no path that a disk can have, a module leaves the disk alone. -/
theorem diskAt_idle (hwrites : task.dryRun = false) (hmedium : task.MediumFails source)
    (hnull : hasNull (task.target source).parent = true) (n : Nat) :
    task.diskAt source start n = start := by
  have hfault : task.faults.directory source = none := by
    cases hfault : task.faults.directory source with
    | none => rfl
    | some failure =>
      have hplain := hasNull_parent (hmedium.directory failure.1 failure.2 hfault).2
      rw [hplain] at hnull
      exact absurd hnull (by simp)
  have htried : task.tried source = (task.target source).parent := by
    rw [tried, hfault, Option.map_none, Option.getD_none, Nat.sub_zero, List.take_length]
  have hfirst : ∃ outcome, task.aloneAt source start 1 = ({ disk := start }, .finished outcome) := by
    rw [aloneAt_succ, aloneAt, advance_waiting_eq]
    cases hlanguage : Language.choose? task.languages source.path with
    | none =>
      simp only [prepare, hlanguage]
      exact ⟨_, rfl⟩
    | some language =>
      rw [prepare_of_choose hwrites hlanguage, htried, makeDirectories_null hnull]
      exact ⟨_, rfl⟩
  obtain ⟨outcome, hfirst⟩ := hfirst
  cases n with
  | zero => rfl
  | succ n =>
    have hstage : task.stageAt source start 1 = .finished outcome := congrArg Prod.snd hfirst
    have hsame := aloneAt_of_finished hstage n
    rw [Nat.add_comm n 1, diskAt, hsame, hfirst]

/-- Outcomes that do not halt the run make a report. -/
theorem reportedAll_of_quiet (task : Task) (report : Report) {steps : List (SourceModule × Outcome)}
    (h : ∀ step ∈ steps, step.2.halts = false) : ∃ final, task.reportedAll report steps = .ok final := by
  induction steps generalizing report with
  | nil => exact ⟨report, rfl⟩
  | cons step steps ih =>
    obtain ⟨source, outcome⟩ := step
    have hquiet := h _ List.mem_cons_self
    have hrest (next : Report) := ih next fun step hstep => h step (List.mem_cons_of_mem _ hstep)
    cases outcome with
    | bound entry written =>
      rw [reportedAll_bound]
      exact hrest _
    | noted diagnostic =>
      rw [reportedAll_noted]
      exact hrest _
    | unsupported error => exact absurd hquiet (by simp [Outcome.halts])
    | stopped error => exact absurd hquiet (by simp [Outcome.halts])

end Task

end FfiBindings.Generation
