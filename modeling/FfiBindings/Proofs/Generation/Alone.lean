import FfiBindings.Proofs.Generation.Frame
import FfiBindings.Proofs.Generation.Module
import FfiBindings.Proofs.Generation.Pool

/-!
The work on one module by itself, from a disk and without a journal (`Task.aloneAt`), against the work on it
while other modules are worked on. A disk follows the one of a module by itself if the module sees the same
on both (`Follows`): its source, the template, the files above its binding, and its binding, or what comes
to be there in the end. The next step then comes to the same on both, and the disk follows still (`Follows.advance`).
-/

set_option autoImplicit false
set_option relaxedAutoImplicit false

namespace FfiBindings.Generation.Task

open Disk

variable (task : Task) (source : SourceModule) (start : Disk)

/-- The work on a module by itself, after that many steps. -/
def aloneAt : Nat → Session × Stage
  | 0 => ({ disk := start }, .waiting)
  | n + 1 => task.advance source (aloneAt n).1 (aloneAt n).2

/-- The disk after that many steps. -/
def diskAt (n : Nat) : Disk :=
  (task.aloneAt source start n).1.disk

/-- The stage after that many steps. -/
def stageAt (n : Nat) : Stage :=
  (task.aloneAt source start n).2

/-- All of the work on a module by itself. -/
def alone : Session × Outcome :=
  task.finish source { disk := start }

/-- What the place of the binding shows when the module is worked on by itself. -/
def finalSight : Option Sight :=
  (task.alone source start).1.disk.tree.sight? (start.place (task.target source))

variable {task source start} {disk after : Disk} {n : Nat}

/-! ### A module by itself -/

theorem aloneAt_succ (task : Task) (source : SourceModule) (start : Disk) (n : Nat) :
    task.aloneAt source start (n + 1) =
      task.advance source (task.aloneAt source start n).1 (task.aloneAt source start n).2 :=
  rfl

theorem aloneAt_succ_of_stage {stage : Stage} (h : task.stageAt source start n = stage) :
    task.aloneAt source start (n + 1) = task.advance source (task.aloneAt source start n).1 stage := by
  rw [aloneAt_succ, ← h, stageAt]

theorem aloneAt_three (task : Task) (source : SourceModule) (start : Disk) :
    task.aloneAt source start 3 =
      ((task.alone source start).1, .finished (task.alone source start).2) :=
  task.advance_advance_advance source { disk := start }

theorem aloneAt_of_finished {outcome : Outcome}
    (h : task.stageAt source start n = .finished outcome) (more : Nat) :
    task.aloneAt source start (n + more) = task.aloneAt source start n := by
  induction more with
  | zero => rfl
  | succ more ih =>
    have hstage : (task.aloneAt source start n).2 = .finished outcome := h
    rw [← Nat.add_assoc, aloneAt_succ, ih, hstage, advance, ← hstage]

/-- A module that is finished is as it is in the end. -/
theorem aloneAt_eq_alone {outcome : Outcome} (h : task.stageAt source start n = .finished outcome) :
    task.aloneAt source start n = ((task.alone source start).1, .finished (task.alone source start).2) := by
  rw [← aloneAt_three]
  rcases Nat.le_total n 3 with hearly | hlate
  · rw [← aloneAt_of_finished h (3 - n), Nat.add_sub_cancel' hearly]
  · have hthree : task.stageAt source start 3 = .finished (task.alone source start).2 := by
      rw [stageAt, aloneAt_three]
    rw [← aloneAt_of_finished hthree (n - 3), Nat.add_sub_cancel' hlate]

theorem eq_alone_of_stageAt {outcome : Outcome} (h : task.stageAt source start n = .finished outcome) :
    outcome = (task.alone source start).2 := by
  have hend := congrArg Prod.snd (aloneAt_eq_alone h)
  rw [← stageAt, h] at hend
  exact Stage.finished.inj hend

theorem aloneAt_logLocations (task : Task) (source : SourceModule) (start : Disk) (n : Nat) :
    (task.aloneAt source start n).1.logLocations = [] := by
  have hhandlers : (task.aloneAt source start n).1.journal.handlers = [] := by
    induction n with
    | zero => rfl
    | succ n ih => rw [aloneAt_succ, advance_handlers, ih]
  rw [Session.logLocations, hhandlers, List.filterMap_nil]

theorem step_changes (hcurrent : (task.diskAt source start n).HasCurrent) :
    Changes (· = (task.diskAt source start n).place (task.target source))
      (task.StepDirectories source (task.diskAt source start n)) (task.diskAt source start n)
      (task.diskAt source start (n + 1)) := by
  have hchanges := task.advance_changes source hcurrent (task.stageAt source start n)
  rw [aloneAt_logLocations] at hchanges
  refine Changes.mono hchanges (fun location hfile => ?_) fun _ h => h
  rcases hfile with hplace | ⟨hnone, -⟩
  · exact hplace
  · exact absurd hnone (by simp)

/-- By itself a module brings a file to the place of its binding, and directories to the way there. -/
theorem diskAt_changes (task : Task) (source : SourceModule) (hcurrent : start.HasCurrent) (n : Nat) :
    Changes (· = start.place (task.target source)) (task.StepDirectories source start) start
      (task.diskAt source start n) := by
  induction n with
  | zero => exact .refl _ _ start
  | succ n ih =>
    have hstep := @step_changes task source start n (ih.keeps.hasCurrent hcurrent)
    refine ih.trans (hstep.mono (fun location hplace => ?_) fun location hway => ?_)
    · rw [hplace, ih.keeps.place_eq]
    · rwa [StepDirectories, ih.keeps.start_eq] at hway

theorem diskAt_keeps (task : Task) (source : SourceModule) (hcurrent : start.HasCurrent) (n more : Nat) :
    KeepsDirectories (task.diskAt source start n) (task.diskAt source start (n + more)) := by
  induction more with
  | zero => exact .refl _
  | succ more ih =>
    exact ih.trans (step_changes ((diskAt_changes task source hcurrent _).keeps.hasCurrent hcurrent)).keeps

/-- The directories that a module makes are there in the end. -/
theorem diskAt_keeps_alone (task : Task) (source : SourceModule) (hcurrent : start.HasCurrent) (n : Nat) :
    KeepsDirectories (task.diskAt source start n) (task.alone source start).1.disk := by
  have hthree : (task.alone source start).1.disk = task.diskAt source start 3 := by
    rw [diskAt, aloneAt_three]
  rcases Nat.le_total n 3 with hearly | hlate
  · rw [hthree, ← Nat.add_sub_cancel' hearly]
    exact diskAt_keeps task source hcurrent n (3 - n)
  · have hstage : task.stageAt source start 3 = .finished (task.alone source start).2 := by
      rw [stageAt, aloneAt_three]
    have hsame := aloneAt_of_finished hstage (n - 3)
    rw [Nat.add_sub_cancel' hlate] at hsame
    rw [hthree, diskAt, hsame]
    exact .refl _

/-! ### What a module sees -/

/-- Where a module looks: at its source and at the template. -/
def Reads (task : Task) (source : SourceModule) (start : Disk) (location : Location) : Prop :=
  location = start.place source.path ∨ task.IsTemplate start location

/-- The paths of a module are plain, and it does not read its own binding. -/
structure Steady (task : Task) (source : SourceModule) (start : Disk) : Prop where
  current : start.HasCurrent
  plain : IsPlain source.path
  down : ".." ∉ (task.target source).parts
  noNull : hasNull (task.target source).parent = false → hasNull (task.target source) = false
  unread : start.place source.path ≠ start.place (task.target source)
  there : start.tree.FileAt (start.place source.path)
  template : task.TemplateFixed start

/-- A module does not look at its own binding. -/
theorem Steady.target_unread (h : task.Steady source start) {location : Location}
    (hreads : task.Reads source start location) : location ≠ start.place (task.target source) := by
  rcases hreads with rfl | htemplate
  · exact h.unread
  · exact target_ne_template htemplate source

/-- A module sees the same as at the start, but for its binding: its source, the template, and the files above
its binding. -/
structure Sees (task : Task) (source : SourceModule) (start disk : Disk) : Prop where
  umask : disk.umask = start.umask
  reads : disk.tree.sight? (start.place source.path) = start.tree.sight? (start.place source.path)
  template : task.template disk = task.template start
  above : ∀ above, above <+: start.place (task.target source) → above ≠ start.place (task.target source) →
    (disk.tree.FileAt above ↔ start.tree.FileAt above)

/-- The disk follows the one of a module that is worked on by itself and has taken that many steps. The
binding may be already what it is to be in the end. -/
structure Follows (task : Task) (source : SourceModule) (start : Disk) (n : Nat) (disk : Disk) : Prop where
  sees : task.Sees source start disk
  keeps : KeepsDirectories (task.diskAt source start n) disk
  binding : disk.tree.sight? (start.place (task.target source)) =
      (task.diskAt source start n).tree.sight? (start.place (task.target source)) ∨
    disk.tree.sight? (start.place (task.target source)) = task.finalSight source start

theorem Sees.refl (task : Task) (source : SourceModule) (start : Disk) : task.Sees source start start :=
  ⟨rfl, rfl, rfl, fun _ _ _ => Iff.rfl⟩

theorem Follows.refl (task : Task) (source : SourceModule) (start : Disk) : task.Follows source start 0 start :=
  ⟨.refl task source start, .refl start, .inl rfl⟩

theorem Follows.keeps_start (hcurrent : start.HasCurrent) (h : task.Follows source start n disk) :
    KeepsDirectories start disk :=
  (diskAt_changes task source hcurrent n).keeps.trans h.keeps

/-- Where directories are made for a binding, it lies below. -/
theorem stepDirectories_above (hdown : ".." ∉ (task.target source).parts) {location : Location}
    (h : task.StepDirectories source disk location) :
    location <+: disk.place (task.target source) ∧ location ≠ disk.place (task.target source) := by
  obtain ⟨front, -, hfront, rfl⟩ := h
  have hshort : front <+: (task.target source).parent.parts := hfront.trans (task.tried_parent source)
  have hinit : front <+: (task.target source).parts := hshort.trans (List.dropLast_prefix _)
  have hplace : disk.place (task.target source) =
      disk.start (task.target source) ++ (task.target source).parts :=
    Path.walkUpAndDown_eq_append hdown _
  have hstart : disk.start (task.tried source) = disk.start (task.target source) := rfl
  rw [hplace, hstart, Path.walkUpAndDown_eq_append fun hmem => hdown (hinit.subset hmem)]
  refine ⟨(List.prefix_append_right_inj _).2 hinit, fun heq => ?_⟩
  have hlength := congrArg List.length (List.append_cancel_left heq)
  have hpositive := List.length_pos_iff.2 (target_ne_nil task source)
  have hbound := hshort.length_le
  rw [Path.parent, List.length_dropLast] at hbound
  omega

/-- A module sees the same when the disk changes elsewhere, or at its binding. -/
theorem Sees.of_changes {files through : Location → Prop} (hsteady : task.Steady source start)
    (h : task.Sees source start disk) (hkeeps : KeepsDirectories start disk)
    (hchanges : Changes files through disk after)
    (hreads : ∀ location, task.Reads source start location → ¬ files location)
    (habove : ∀ above, above <+: start.place (task.target source) → files above →
      above ≠ start.place (task.target source) → disk.tree.FileAt above) :
    task.Sees source start after := by
  refine ⟨hchanges.umask.trans h.umask, ?_, ?_, fun above hprefix hne => ?_⟩
  · obtain ⟨content, mode, hfile⟩ := hsteady.there
    rw [hfile, hchanges.sight?_eq_file_iff (hreads _ (.inl rfl)), h.reads, hfile]
  · rw [← h.template]
    exact (hsteady.template.of_keeps hkeeps).template_eq (hkeeps.hasCurrent hsteady.current) hchanges
      fun location htemplate => hreads location (.inr (htemplate.of_keeps hkeeps))
  · rw [← h.above above hprefix hne]
    rcases hchanges.sight above with hkept | ⟨hnone, hnew, -⟩ | ⟨hfile, -, content, mode, hnew⟩
    · rw [Tree.FileAt, hkept, Tree.FileAt]
    · rw [Tree.FileAt, Tree.FileAt, hnone, hnew]
      simp
    · exact iff_of_true ⟨content, mode, hnew⟩ (habove above hprefix hfile hne)

theorem sees_diskAt (hsteady : task.Steady source start) (n : Nat) :
    task.Sees source start (task.diskAt source start n) := by
  have hchanges := diskAt_changes task source hsteady.current n
  exact (Sees.refl task source start).of_changes hsteady (.refl start) hchanges
    (fun _ => hsteady.target_unread) fun _ _ hhere hne => absurd hhere hne

/-- The source is read as at the start. -/
theorem Sees.readSource_eq (hsteady : task.Steady source start) (h : task.Sees source start disk)
    (hkeeps : KeepsDirectories start disk) : task.readSource source disk = task.readSource source start := by
  unfold readSource
  cases task.faults.read source with
  | some error => rfl
  | none =>
    obtain ⟨content, mode, hfile⟩ := hsteady.there
    have hbefore : start.read source.path = .ok content :=
      (hsteady.plain.read_eq_ok_iff hsteady.current).2 ⟨mode, hfile⟩
    have hafter : disk.read source.path = .ok content := by
      refine (hsteady.plain.read_eq_ok_iff (hkeeps.hasCurrent hsteady.current)).2 ⟨mode, ?_⟩
      rw [hkeeps.place_eq, h.reads, hfile]
    rw [hbefore, hafter]

/-- A disk that changes where the module does not look follows still. -/
theorem Follows.of_changes {files through : Location → Prop} (hsteady : task.Steady source start)
    (h : task.Follows source start n disk) (hchanges : Changes files through disk after)
    (hreads : ∀ location, task.Reads source start location → ¬ files location)
    (habove : ∀ above, above <+: start.place (task.target source) → files above →
      above ≠ start.place (task.target source) ∧ disk.tree.FileAt above)
    (htarget : through (start.place (task.target source)) →
      disk.tree.sight? (start.place (task.target source)) = some .directory) :
    task.Follows source start n after := by
  have hsame : after.tree.sight? (start.place (task.target source)) =
      disk.tree.sight? (start.place (task.target source)) := by
    rcases hchanges.sight (start.place (task.target source)) with hsame | ⟨hnone, -, hthrough⟩ | ⟨hfile, -, -⟩
    · exact hsame
    · rw [htarget hthrough] at hnone
      exact absurd hnone (by simp)
    · exact absurd rfl (habove _ (List.prefix_refl _) hfile).1
  refine ⟨h.sees.of_changes hsteady (h.keeps_start hsteady.current) hchanges hreads
    fun above hprefix hfile _ => (habove above hprefix hfile).2, h.keeps.trans hchanges.keeps, ?_⟩
  rw [hsame]
  exact h.binding

/-! ### The same step on both disks -/

/-- Between the first step and the last one, the directory of the binding is there. -/
theorem isDirectory_of_rank (hcurrent : start.HasCurrent) (hwrites : task.dryRun = false) (n : Nat)
    (hbegun : 0 < (task.stageAt source start n).rank) (hopen : (task.stageAt source start n).rank < 3) :
    (task.diskAt source start n).isDirectory (task.target source).parent = true := by
  induction n with
  | zero => exact absurd hbegun (by simp [stageAt, aloneAt, Stage.rank])
  | succ n ih =>
    have hthere := (diskAt_changes task source hcurrent n).keeps.hasCurrent hcurrent
    have hkept := diskAt_keeps task source hcurrent n 1
    have hnext : task.aloneAt source start (n + 1) =
      task.advance source (task.aloneAt source start n).1 (task.stageAt source start n) := rfl
    rw [stageAt, hnext] at hopen
    cases hstage : task.stageAt source start n with
    | waiting =>
      rw [diskAt, hnext]
      rw [hstage, advance_waiting_eq] at hopen ⊢
      cases hlanguage : Language.choose? task.languages source.path with
      | none =>
        simp only [prepare, hlanguage] at hopen
        exact absurd hopen (by simp [afterPreparing, Stage.rank])
      | some language =>
        rw [prepare_of_choose hwrites hlanguage] at hopen ⊢
        cases hfailure : ((task.aloneAt source start n).1.disk.makeDirectories (task.tried source)).2.or
            ((task.faults.directory source).map Prod.fst) with
        | none => exact isDirectory_of_tried hthere hfailure
        | some error =>
          rw [hfailure] at hopen
          exact absurd hopen (by simp [preparation, afterPreparing, Stage.rank])
    | prepared language =>
      exact hkept.isDirectory (ih (by rw [hstage]; exact Nat.one_pos) (by rw [hstage]; simp [Stage.rank]))
    | laidOut layout =>
      rw [hstage, advance_laidOut_eq] at hopen
      exact absurd hopen (by simp [Stage.rank])
    | finished outcome =>
      rw [hstage] at hopen
      exact absurd hopen (by simp [advance, Stage.rank])

/-- What the next step of a module comes to on a disk that follows. -/
structure StepFollows (task : Task) (source : SourceModule) (start : Disk) (n : Nat) (before : Disk)
    (next : Session × Stage) : Prop where
  stage : next.2 = task.stageAt source start (n + 1)
  keeps : KeepsDirectories (task.diskAt source start (n + 1)) next.1.disk
  made : ∀ location, next.1.disk.tree.sight? location = some .directory →
    before.tree.sight? location = some .directory ∨
      (task.diskAt source start (n + 1)).tree.sight? location = some .directory
  binding : next.1.disk.tree.sight? (start.place (task.target source)) =
      (task.diskAt source start (n + 1)).tree.sight? (start.place (task.target source)) ∨
    next.1.disk.tree.sight? (start.place (task.target source)) = task.finalSight source start

/-- Where neither disk changes, the one follows the other. -/
theorem Follows.stepFollows_of_idle (h : task.Follows source start n disk) {next : Session × Stage}
    (hstage : next.2 = task.stageAt source start (n + 1)) (hhere : next.1.disk = disk)
    (halone : task.diskAt source start (n + 1) = task.diskAt source start n) :
    task.StepFollows source start n disk next := by
  refine ⟨hstage, ?_, fun location hdirectory => .inl ?_, ?_⟩
  · rw [halone, hhere]
    exact h.keeps
  · rwa [hhere] at hdirectory
  · rw [halone, hhere]
    exact h.binding

/-- Where files come to both disks and no directories, the one follows the other if the binding does. -/
theorem Follows.stepFollows_of_files {files filesAlone : Location → Prop}
    (h : task.Follows source start n disk) {next : Session × Stage}
    (hstage : next.2 = task.stageAt source start (n + 1))
    (hhere : Changes files (fun _ => False) disk next.1.disk)
    (halone : Changes filesAlone (fun _ => False) (task.diskAt source start n)
      (task.diskAt source start (n + 1)))
    (hbinding : next.1.disk.tree.sight? (start.place (task.target source)) =
        (task.diskAt source start (n + 1)).tree.sight? (start.place (task.target source)) ∨
      next.1.disk.tree.sight? (start.place (task.target source)) = task.finalSight source start) :
    task.StepFollows source start n disk next := by
  refine ⟨hstage, ⟨?_, fun location hdirectory => ?_⟩, fun location hdirectory => .inl ?_, hbinding⟩
  · rw [hhere.current, h.keeps.current, halone.current]
  · refine hhere.keeps.directory _ (h.keeps.directory _ ?_)
    by_contra hbefore
    exact halone.sight?_ne_directory not_false hbefore hdirectory
  · by_contra hbefore
    exact hhere.sight?_ne_directory not_false hbefore hdirectory

/-- Where the directories that come to the one disk come to the other too, the one follows the other. -/
theorem Follows.stepFollows_of_made (h : task.Follows source start n disk) {next : Session × Stage}
    (hstage : next.2 = task.stageAt source start (n + 1))
    (hcurrent : next.1.disk.current = (task.diskAt source start (n + 1)).current)
    (hkept : (task.diskAt source start (n + 1)).tree.sight? (start.place (task.target source)) =
      (task.diskAt source start n).tree.sight? (start.place (task.target source)))
    (hsight : ∀ location, next.1.disk.tree.sight? location =
      if (task.diskAt source start (n + 1)).tree.sight? location = some .directory then some .directory
      else disk.tree.sight? location) : task.StepFollows source start n disk next := by
  refine ⟨hstage, ⟨hcurrent, fun location hdirectory => ?_⟩, fun location hdirectory => ?_, ?_⟩
  · rw [hsight, if_pos hdirectory]
  · by_cases hmade : (task.diskAt source start (n + 1)).tree.sight? location = some .directory
    · exact .inr hmade
    · refine .inl ?_
      rwa [hsight, if_neg hmade] at hdirectory
  · rw [hsight, hkept]
    split
    · rename_i hdirectory
      exact .inl hdirectory.symm
    · exact h.binding

/-- On the way to the binding both disks have the same files. -/
theorem Follows.sameWay (hsteady : task.Steady source start) (h : task.Follows source start n disk) :
    SameWay (task.diskAt source start n) disk (task.tried source) := by
  have hchanges := diskAt_changes task source hsteady.current n
  refine ⟨h.keeps, fun above habove => ?_⟩
  have hshort := task.tried_parent source
  have hinit := task.tried_prefix source
  have hplace : start.place (task.target source) =
      start.start (task.target source) ++ (task.target source).parts :=
    Path.walkUpAndDown_eq_append hsteady.down _
  have htried : start.place (task.tried source) =
      start.start (task.target source) ++ (task.tried source).parts :=
    Path.walkUpAndDown_eq_append (fun hmem => hsteady.down (hinit.subset hmem)) _
  rw [hchanges.keeps.place_eq, htried] at habove
  have hprefix : above <+: start.place (task.target source) := by
    rw [hplace]
    exact habove.trans ((List.prefix_append_right_inj _).2 hinit)
  have hne : above ≠ start.place (task.target source) := by
    rintro rfl
    have hlength := habove.length_le
    have hbound := hshort.length_le
    have hpositive := List.length_pos_iff.2 (target_ne_nil task source)
    rw [Path.parent, List.length_dropLast] at hbound
    rw [hplace, List.length_append, List.length_append] at hlength
    omega
  rw [h.sees.above above hprefix hne]
  exact exists_congr fun content => exists_congr fun mode => (hchanges.sight?_eq_file_iff hne).symm

/-- The first step makes on both disks what is missing there, or is refused on both. -/
theorem Follows.prepare (hsteady : task.Steady source start) {session : Session}
    (h : task.Follows source start n session.disk) (hstage : task.stageAt source start n = .waiting) :
    task.StepFollows source start n session.disk (task.advance source session .waiting) := by
  have hnext := aloneAt_succ_of_stage hstage
  have hthere := (diskAt_changes task source hsteady.current n).keeps.hasCurrent hsteady.current
  rw [advance_waiting_eq] at hnext ⊢
  cases hlanguage : Language.choose? task.languages source.path with
  | none =>
    have hidle (session : Session) : task.prepare source session =
        (session, .error (task.note source .warning "no extractor supports this file type")) := by
      simp only [Task.prepare, hlanguage]
    rw [hidle] at hnext ⊢
    exact h.stepFollows_of_idle (by rw [stageAt, hnext]) rfl (by rw [diskAt, hnext, diskAt])
  | some language =>
    by_cases hdry : task.dryRun = true
    · have hidle (session : Session) : task.prepare source session = (session, .ok language) := by
        simp only [Task.prepare, hlanguage, if_pos hdry]
      rw [hidle] at hnext ⊢
      exact h.stepFollows_of_idle (by rw [stageAt, hnext]) rfl (by rw [diskAt, hnext, diskAt])
    · have hwrites : task.dryRun = false := by simpa using hdry
      rw [prepare_of_choose hwrites hlanguage] at hnext ⊢
      obtain ⟨hfailure, hsight⟩ := makeDirectories_congr
        (fun hmem => hsteady.down ((task.tried_prefix source).subset hmem))
        hthere (h.sameWay hsteady)
      have hdisk : task.diskAt source start (n + 1) =
          ((task.diskAt source start n).makeDirectories (task.tried source)).1 := by
        rw [diskAt, hnext]
        rfl
      have hgrows := makeDirectories_grows hthere (task.tried source)
      have hkept : (task.diskAt source start (n + 1)).tree.sight? (start.place (task.target source)) =
          (task.diskAt source start n).tree.sight? (start.place (task.target source)) := by
        rw [hdisk]
        rcases hgrows.sight (start.place (task.target source)) with hsame | ⟨-, -, hway⟩
        · exact hsame
        · refine absurd ?_ (stepDirectories_above hsteady.down hway).2
          rw [(diskAt_changes task source hsteady.current n).keeps.place_eq]
      have hcurrent := (makeDirectories_grows (h.keeps.hasCurrent hthere) (task.tried source)).current
      rw [← hdisk] at hsight hgrows
      refine h.stepFollows_of_made ?_ ?_ hkept hsight
      · rw [stageAt, hnext]
        show afterPreparing (task.preparation source language _) =
          afterPreparing (task.preparation source language _)
        rw [hfailure]
        rfl
      · exact hcurrent.trans (h.keeps.current.trans hgrows.current.symm)

/-- What the second step comes to is told by what the module sees, for its journal does not write there. -/
theorem Sees.read_eq (hsteady : task.Steady source start) {session : Session}
    (h : task.Sees source start session.disk) (hkeeps : KeepsDirectories start session.disk)
    (hlog : ∀ location ∈ session.logLocations, ¬ task.Reads source start location)
    (language : Language) :
    (task.read source language session).2 = (task.readSource source start).mapError
        (task.refused source "cannot read source") >>= fun bytes =>
      (task.extract source language bytes).2 >>= task.layOut source start := by
  have hread := h.readSource_eq hsteady hkeeps
  unfold Task.read
  rw [hread]
  cases task.readSource source start with
  | error error => rfl
  | ok bytes =>
    have htold := h.of_changes hsteady hkeeps
      (session.noteAll_changes (task.extract source language bytes).1)
      (fun location hreads hthere => hlog location hthere.1 hreads) fun _ _ hthere _ => hthere.2
    have hlayout : task.layOut source (session.noteAll (task.extract source language bytes).1).disk =
        task.layOut source start :=
      funext (layOut_congr htold.template source)
    show (task.extract source language bytes).2.bind _ = (task.extract source language bytes).2.bind _
    rw [hlayout]

/-- The source is read on both disks, and neither changes where the module looks. -/
theorem Follows.read (hsteady : task.Steady source start) {session : Session}
    (h : task.Follows source start n session.disk)
    (hlog : ∀ location ∈ session.logLocations, ¬ task.Reads source start location ∧
      location ≠ start.place (task.target source))
    {language : Language} (hstage : task.stageAt source start n = .prepared language) :
    task.StepFollows source start n session.disk (task.advance source session (.prepared language)) := by
  have hnext := aloneAt_succ_of_stage hstage
  have hkeeps := (diskAt_changes task source hsteady.current n).keeps
  rw [advance_prepared_eq] at hnext ⊢
  have hlogged := task.read_onlyLogged source language session
  have hsilent := task.read_onlyLogged source language (task.aloneAt source start n).1
  have hnolog := aloneAt_logLocations task source start n
  rw [hnolog] at hsilent
  have hdisk : task.diskAt source start (n + 1) =
      (task.read source language (task.aloneAt source start n).1).1.disk := by
    rw [diskAt, hnext]
  have hsame : (task.read source language session).2 =
      (task.read source language (task.aloneAt source start n).1).2 := by
    rw [h.sees.read_eq hsteady (hkeeps.trans h.keeps) (fun location hthere => (hlog location hthere).1),
      (sees_diskAt hsteady n).read_eq hsteady hkeeps (by simp [hnolog])]
  have hhere : (task.read source language session).1.disk.tree.sight? (start.place (task.target source)) =
      session.disk.tree.sight? (start.place (task.target source)) := by
    refine hlogged.sight?_eq ?_ not_false
    rintro ⟨hthere, -⟩
    exact (hlog _ hthere).2 rfl
  have halone : (task.diskAt source start (n + 1)).tree.sight? (start.place (task.target source)) =
      (task.diskAt source start n).tree.sight? (start.place (task.target source)) := by
    rw [hdisk]
    refine hsilent.sight?_eq ?_ not_false
    rintro ⟨hnone, -⟩
    exact absurd hnone (by simp)
  rw [← hdisk] at hsilent
  refine h.stepFollows_of_files ?_ hlogged hsilent ?_
  · rw [stageAt, hnext, hsame]
  · rw [hhere, halone]
    exact h.binding

theorem leftBy_eq_of_umask (task : Task) (source : SourceModule) (h : after.umask = disk.umask)
    (layout : Layout) (sight : Option Sight) :
    task.leftBy source after layout sight = task.leftBy source disk layout sight := by
  unfold leftBy overwritten newFileMode
  rw [h]

/-- Before the last step the place of the binding is reached. -/
theorem locate_of_laidOut (hsteady : task.Steady source start) (hwrites : task.dryRun = false)
    {layout : Layout} (hstage : task.stageAt source start n = .laidOut layout) :
    (task.diskAt source start n).locate (task.target source) = .ok (start.place (task.target source)) := by
  have hkeeps := (diskAt_changes task source hsteady.current n).keeps
  have hparent : (task.diskAt source start n).isDirectory (task.target source).parent = true :=
    isDirectory_of_rank hsteady.current hwrites n (by rw [hstage]; simp [Stage.rank])
      (by rw [hstage]; simp [Stage.rank])
  rw [← hkeeps.place_eq]
  exact locate_target (hkeeps.hasCurrent hsteady.current) (hsteady.noNull (isDirectory_iff.1 hparent).1)
    hparent

/-- The last step leaves the binding as it is in the end. -/
theorem sight?_of_laidOut (hsteady : task.Steady source start) (hwrites : task.dryRun = false)
    {layout : Layout} (hstage : task.stageAt source start n = .laidOut layout) :
    (task.diskAt source start (n + 1)).tree.sight? (start.place (task.target source)) =
        task.leftBy source (task.diskAt source start n) layout
          ((task.diskAt source start n).tree.sight? (start.place (task.target source))) ∧
      task.finalSight source start =
        (task.diskAt source start (n + 1)).tree.sight? (start.place (task.target source)) := by
  have hnext := aloneAt_succ_of_stage hstage
  rw [advance_laidOut_eq] at hnext
  have hthere := (diskAt_changes task source hsteady.current n).keeps.hasCurrent hsteady.current
  constructor
  · rw [diskAt, hnext]
    refine sight?_write hwrites hthere (locate_of_laidOut hsteady hwrites hstage) ?_ layout
    rw [aloneAt_logLocations]
    simp
  · have hend := aloneAt_eq_alone (congrArg Prod.snd hnext)
    rw [diskAt, hend, finalSight]

/-- Before the last step the binding is not written yet, or it is what that step leaves. -/
theorem Follows.binding_of_laidOut (hsteady : task.Steady source start) (h : task.Follows source start n disk)
    (hwrites : task.dryRun = false) {layout : Layout}
    (hstage : task.stageAt source start n = .laidOut layout) :
    disk.tree.sight? (start.place (task.target source)) =
        (task.diskAt source start n).tree.sight? (start.place (task.target source)) ∨
      disk.tree.sight? (start.place (task.target source)) =
        task.leftBy source (task.diskAt source start n) layout
          ((task.diskAt source start n).tree.sight? (start.place (task.target source))) := by
  obtain ⟨halone, hfinal⟩ := sight?_of_laidOut hsteady hwrites hstage
  rw [← halone, ← hfinal]
  exact h.binding

/-- The binding is written on both disks, or not written on both. -/
theorem Follows.write (hsteady : task.Steady source start) {session : Session}
    (h : task.Follows source start n session.disk)
    (hlog : ∀ location ∈ session.logLocations,
      location ≠ start.place (task.target source))
    {layout : Layout} (hstage : task.stageAt source start n = .laidOut layout) :
    task.StepFollows source start n session.disk (task.advance source session (.laidOut layout)) := by
  have hnext := aloneAt_succ_of_stage hstage
  have hthere := (diskAt_changes task source hsteady.current n).keeps.hasCurrent hsteady.current
  have hcurrent := h.keeps.hasCurrent hthere
  rw [advance_laidOut_eq] at hnext ⊢
  by_cases hdry : task.dryRun = true
  · rw [write_dry hdry] at hnext ⊢
    exact h.stepFollows_of_idle (by rw [stageAt, hnext]) rfl (by rw [diskAt, hnext, diskAt])
  have hwrites : task.dryRun = false := by simpa using hdry
  have hlocate := locate_of_laidOut hsteady hwrites hstage
  have hlocateHere := h.keeps.locate_eq_ok hlocate
  obtain ⟨halone, -⟩ := sight?_of_laidOut hsteady hwrites hstage
  have hbinding := h.binding_of_laidOut hsteady hwrites hstage
  -- there is a directory in the place of the binding on both disks or on neither, so both fail alike
  have hdirectory : session.disk.tree.sight? (start.place (task.target source)) = some .directory ↔
      (task.diskAt source start n).tree.sight? (start.place (task.target source)) = some .directory := by
    rcases hbinding with hsame | hdone
    · rw [hsame]
    · rw [hdone, leftBy_directory]
  have hfailure : (task.writeContent source layout session.disk).2 =
      (task.writeContent source layout (task.diskAt source start n)).2 := by
    rw [(task.writeContent_spec source hcurrent hlocateHere layout).1,
      (task.writeContent_spec source hthere hlocate layout).1]
    simp only [hdirectory]
  have hchanges := task.write_changes source hcurrent layout fun _ => False
  have hchangesAlone := task.write_changes source hthere layout fun _ => False
  have hdisk : task.diskAt source start (n + 1) =
      (task.write source layout (task.aloneAt source start n).1).1.disk := by
    rw [diskAt, hnext]
  rw [← hdisk] at hchangesAlone
  refine h.stepFollows_of_files ?_ hchanges hchangesAlone (.inl ?_)
  · rw [stageAt, hnext, write_eq hwrites, write_eq hwrites, hfailure]
    rfl
  · have humask : session.disk.umask = (task.diskAt source start n).umask :=
      h.sees.umask.trans (diskAt_changes task source hsteady.current n).umask.symm
    rw [sight?_write hwrites hcurrent hlocateHere (fun hthere => hlog _ hthere rfl) layout,
      leftBy_eq_of_umask task source humask, halone]
    rcases hbinding with hsame | hdone
    · rw [hsame]
    · rw [hdone, leftBy_leftBy]

/-- The step: whatever the stage, it comes to the same on a disk that follows, and the disk follows still. It
brings files to the binding and the log file, and directories where they come to the module by itself. -/
theorem Follows.advance (hsteady : task.Steady source start) {session : Session}
    (h : task.Follows source start n session.disk)
    (hlog : ∀ location ∈ session.logLocations, ¬ task.Reads source start location ∧
      location ≠ start.place (task.target source)) :
    let next := task.advance source session (task.stageAt source start n)
    next.2 = task.stageAt source start (n + 1) ∧
      task.Follows source start (n + 1) next.1.disk ∧
      Changes (task.StepFiles source session.logLocations session.disk)
        (fun location => (task.diskAt source start (n + 1)).tree.sight? location = some .directory)
        session.disk next.1.disk := by
  intro next
  have hkeeps := (diskAt_changes task source hsteady.current n).keeps
  have hcurrent := h.keeps.hasCurrent (hkeeps.hasCurrent hsteady.current)
  have hplaces (path : Path) : session.disk.place path = start.place path := by
    rw [h.keeps.place_eq, hkeeps.place_eq]
  have hstep : task.StepFollows source start n session.disk next := by
    cases hstage : task.stageAt source start n with
    | waiting =>
      have hprepare := h.prepare hsteady hstage
      rwa [← hstage] at hprepare
    | prepared language =>
      have hread := h.read hsteady hlog hstage
      rwa [← hstage] at hread
    | laidOut layout =>
      have hwrite := h.write hsteady (fun location hthere => (hlog location hthere).2) hstage
      rwa [← hstage] at hwrite
    | finished outcome =>
      have hsame := aloneAt_of_finished hstage 1
      have hidle : next = (session, .finished outcome) := by
        show task.advance source session (task.stageAt source start n) = _
        rw [hstage, Task.advance]
      refine h.stepFollows_of_idle ?_ ?_ ?_
      · rw [hidle, stageAt, hsame, ← hstage, stageAt]
      · rw [hidle]
      · rw [diskAt, hsame, diskAt]
  have hframe := task.advance_changes source hcurrent (task.stageAt source start n)
  have hchanges : Changes (task.StepFiles source session.logLocations session.disk)
      (fun location => (task.diskAt source start (n + 1)).tree.sight? location = some .directory)
      session.disk next.1.disk := by
    refine ⟨hframe.current, hframe.umask, fun location => ?_⟩
    rcases hframe.sight location with hsame | ⟨hnone, hnew, -⟩ | hfile
    · exact .inl hsame
    · refine .inr (.inl ⟨hnone, hnew, (hstep.made location hnew).resolve_left ?_⟩)
      rw [hnone]
      simp
    · exact .inr (.inr hfile)
  refine ⟨hstep.stage, ?_, hchanges⟩
  refine ⟨h.sees.of_changes hsteady (hkeeps.trans h.keeps) hchanges ?_ fun above _ hfile hne => ?_,
    hstep.keeps, hstep.binding⟩
  · rintro location hreads (hplace | ⟨hthere, -⟩)
    · exact hsteady.target_unread hreads (hplace.trans (hplaces _))
    · exact (hlog _ hthere).1 hreads
  · rcases hfile with hplace | ⟨-, hthere⟩
    · exact absurd (hplace.trans (hplaces _)) hne
    · exact hthere

end FfiBindings.Generation.Task
