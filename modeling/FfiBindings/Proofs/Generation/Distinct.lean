import FfiBindings.Proofs.Generation.Frame
import FfiBindings.Proofs.Generation.Pool
import FfiBindings.Proofs.Generation.Run
import FfiBindings.Proofs.Tree.Proper

/-!
No run brings a second entry of one name to a directory (`generate_distinct`). All that a run does to a disk is
to put entries and to erase them, and neither does that, whatever fails and however the steps interleave.
-/

set_option autoImplicit false
set_option relaxedAutoImplicit false

namespace FfiBindings

/-! ### Disks -/

namespace Disk

variable {disk after : Disk} {path : Path}

/-- Whether the entries of each directory of the disk have different names. -/
def IsDistinct (disk : Disk) : Prop :=
  disk.tree.isDistinct = true

theorem IsDistinct.putAt (h : disk.IsDistinct) (location : Location) {entry : Entry}
    (hentry : Tree.isDistinctEntry entry = true) : (disk.putAt location entry).IsDistinct :=
  Tree.isDistinct_putAt location hentry h

theorem IsDistinct.makeDirectory (h : disk.IsDistinct) (hmade : disk.makeDirectory path = .ok after) :
    after.IsDistinct := by
  unfold Disk.makeDirectory at hmade
  split at hmade
  · exact absurd hmade (by simp)
  · split at hmade
    · exact absurd hmade (by simp)
    · rw [← Except.ok.inj hmade]
      exact h.putAt _ rfl

theorem IsDistinct.makeDirectoriesUp (h : disk.IsDistinct) (anchor : Anchor) (parts : List String) :
    (Disk.makeDirectoriesUp anchor disk parts).1.IsDistinct := by
  induction parts generalizing disk with
  | nil =>
    simp only [Disk.makeDirectoriesUp]
    split <;> exact h
  | cons last above ih =>
    simp only [Disk.makeDirectoriesUp]
    split
    · rename_i made hmade
      exact h.makeDirectory hmade
    · split
      · have habove := ih h
        generalize Disk.makeDirectoriesUp anchor disk above = result at habove
        obtain ⟨next, failure⟩ := result
        cases failure with
        | some error => exact habove
        | none =>
          dsimp only
          split
          · rename_i made hmade
            exact habove.makeDirectory hmade
          · split <;> exact habove
      · split <;> exact h

theorem IsDistinct.makeDirectories (h : disk.IsDistinct) (path : Path) :
    (disk.makeDirectories path).1.IsDistinct :=
  h.makeDirectoriesUp path.anchor path.parts.reverse

theorem IsDistinct.write (h : disk.IsDistinct) {content : ByteArray}
    (hwritten : disk.write path content = .ok after) : after.IsDistinct := by
  unfold Disk.write at hwritten
  split at hwritten
  · exact absurd hwritten (by simp)
  · split at hwritten
    · rw [← Except.ok.inj hwritten]
      exact h.putAt _ rfl
    · exact absurd hwritten (by simp)
    · rw [← Except.ok.inj hwritten]
      exact h.putAt _ rfl

theorem IsDistinct.append (h : disk.IsDistinct) (location : Location) (text : String) :
    (Session.append disk location text).IsDistinct := by
  unfold Session.append
  split
  · exact h.putAt _ rfl
  · exact h

/-- Putting a file in the place of another one, by way of a temporary file. -/
theorem IsDistinct.replaceAt (h : disk.IsDistinct) (beside location : Location) (mode : Nat)
    (content : ByteArray) (obstacle : Option FileError) (faults : Index.Faults) :
    (Index.replaceAt disk beside location mode content obstacle faults).1.IsDistinct := by
  have hremove {disk : Disk} (h : disk.IsDistinct) :
      IsDistinct { disk with tree := disk.tree.eraseAt beside } :=
    Tree.isDistinct_eraseAt beside h
  simp only [Index.replaceAt]
  split
  · exact h
  · split
    · exact hremove (h.putAt beside rfl)
    · split
      · exact hremove ((h.putAt beside rfl).putAt beside rfl)
      · split
        · exact hremove (((h.putAt beside rfl).putAt beside rfl).putAt beside rfl)
        · exact (hremove (((h.putAt beside rfl).putAt beside rfl).putAt beside rfl)).putAt location rfl

theorem IsDistinct.replaceFile (h : disk.IsDistinct) (path : Path) (content : ByteArray)
    (faults : Index.Faults) : (Index.replaceFile disk path content faults).1.IsDistinct := by
  have hprepare : (Index.prepare disk path faults).1.IsDistinct := by
    unfold Index.prepare
    split
    · exact h
    · exact h.makeDirectories path.parent
  simp only [Index.replaceFile]
  generalize Index.prepare disk path faults = prepared at hprepare
  obtain ⟨disk, failure⟩ := prepared
  cases failure with
  | some error => exact hprepare
  | none =>
    dsimp only
    split
    · exact hprepare
    · exact hprepare
    · exact IsDistinct.replaceAt hprepare _ _ _ _ _ _

theorem IsDistinct.update (h : disk.IsDistinct) (path : Path) (importPaths : List String) (dryRun : Bool)
    (faults : Index.Faults) : (Index.update disk path importPaths dryRun faults).1.IsDistinct := by
  simp only [Index.update]
  split
  · exact h
  · rename_i prior hread
    split
    · have hreplaced := h.replaceFile path (Index.Update.of prior importPaths).content.toUTF8 faults
      split
      · rename_i hresult
        rw [hresult] at hreplaced
        exact hreplaced
      · rename_i hresult
        rw [hresult] at hreplaced
        exact hreplaced
    · exact h

theorem IsDistinct.note {session : Session} (h : session.disk.IsDistinct) (message : Message) :
    (session.note message).disk.IsDistinct :=
  session.note_keeps message _ h fun _ location _ hsofar => hsofar.append location _

theorem IsDistinct.noteAll {session : Session} (h : session.disk.IsDistinct) (messages : List Message) :
    (session.noteAll messages).disk.IsDistinct := by
  induction messages generalizing session with
  | nil => exact h
  | cons message messages ih => exact ih (h.note message)

end Disk

namespace Generation

open Disk

variable {session : Session} {pool : Pool}

/-! ### The work on the modules -/

namespace Task

theorem prepare_distinct (task : Task) (source : SourceModule) (h : session.disk.IsDistinct) :
    (task.prepare source session).1.disk.IsDistinct := by
  cases hlanguage : Language.choose? task.languages source.path with
  | none =>
    simp only [prepare, hlanguage]
    exact h
  | some language =>
    by_cases hdry : task.dryRun = true
    · rw [prepare_dry hdry]
      exact h
    · rw [prepare_of_choose (by simpa using hdry) hlanguage]
      exact h.makeDirectories (task.tried source)

theorem read_distinct (task : Task) (source : SourceModule) (language : Language)
    (h : session.disk.IsDistinct) : (task.read source language session).1.disk.IsDistinct := by
  unfold read
  split
  · exact h
  · exact h.noteAll _

theorem writeContent_distinct (task : Task) (source : SourceModule) (layout : Layout) {disk : Disk}
    (h : disk.IsDistinct) : (task.writeContent source layout disk).1.IsDistinct := by
  rw [writeContent_eq]
  split
  · exact h
  · split
    · rename_i hwritten
      exact h.write hwritten
    · exact h

theorem write_distinct (task : Task) (source : SourceModule) (layout : Layout)
    (h : session.disk.IsDistinct) : (task.write source layout session).1.disk.IsDistinct := by
  by_cases hdry : task.dryRun = true
  · rw [write_dry hdry]
    exact h
  · have hwritten := task.writeContent_distinct source layout h
    rw [write_eq (by simpa using hdry)]
    dsimp only
    cases (task.writeContent source layout session.disk).2 with
    | some error => exact hwritten
    | none =>
      rw [noteWriting]
      split
      · exact hwritten
      · exact IsDistinct.note hwritten _

theorem advance_distinct (task : Task) (source : SourceModule) (stage : Stage)
    (h : session.disk.IsDistinct) : (task.advance source session stage).1.disk.IsDistinct := by
  cases stage with
  | waiting =>
    rw [advance_waiting_eq]
    exact task.prepare_distinct source h
  | prepared language =>
    rw [advance_prepared_eq]
    exact task.read_distinct source language h
  | laidOut layout =>
    rw [advance_laidOut_eq]
    exact task.write_distinct source layout h
  | finished outcome => exact h

theorem takeUp_distinct (task : Task) (source : SourceModule) (outcome : Outcome) (report : Report)
    (h : session.disk.IsDistinct) : (task.takeUp source outcome session report).1.disk.IsDistinct := by
  cases outcome with
  | bound entry written => exact h
  | noted diagnostic => exact h.note _
  | unsupported error => exact h.note _
  | stopped error => exact h

end Task

theorem Pool.happen_distinct (task : Task) (event : Event) (h : pool.session.disk.IsDistinct) :
    (pool.happen task event).session.disk.IsDistinct := by
  cases event with
  | advance index =>
    show (pool.advance task index).session.disk.IsDistinct
    rcases Pool.advance_cases task pool index with hsame | ⟨job, hjob, hbegun⟩
    · rw [hsame]
      exact h
    · rw [Pool.advance_eq hjob hbegun]
      exact task.advance_distinct job.source job.stage h
  | takeUp =>
    show (pool.takeUp task).session.disk.IsDistinct
    rcases Pool.takeUp_cases task pool with hsame | ⟨report, source, outcome, hreport, hjob⟩
    · rw [hsame]
      exact h
    · rw [Pool.takeUp_eq hreport hjob]
      exact task.takeUp_distinct source outcome report h

theorem Task.work_distinct (task : Task) (workers : Int) (events : List Event)
    (sources : List SourceModule) (report : Report) (h : session.disk.IsDistinct) :
    (task.work workers events sources session report).1.disk.IsDistinct := by
  obtain ⟨pool, hwork, hdistinct, -⟩ := @Task.work_invariant task (fun pool => pool.session.disk.IsDistinct)
    (fun _ event => Pool.happen_distinct task event) sources session report h workers events
  rw [hwork]
  exact hdistinct

/-! ### The run -/

theorem mergeIndex_distinct (faults : Index.Faults) (report : Report) (h : session.disk.IsDistinct) :
    (mergeIndex faults session report).1.disk.IsDistinct := by
  have hupdated := h.update report.indexPath (report.entries.map IndexEntry.importPath) report.dryRun faults
  simp only [mergeIndex]
  generalize Index.update session.disk report.indexPath (report.entries.map IndexEntry.importPath)
    report.dryRun faults = updated at hupdated
  obtain ⟨disk, (error | fault) | update⟩ := updated
  · cases error with
    | nullInPath => exact hupdated
    | refused refusal path => exact IsDistinct.note hupdated _
    | failed message => exact IsDistinct.note hupdated _
  · exact hupdated
  · refine IsDistinct.noteAll ?_ _
    rw [withIndex_disk]
    exact hupdated

theorem generateModules_distinct (task : Task) (workers : Int) (events : List Event)
    (sources : List SourceModule) (h : session.disk.IsDistinct) :
    (generateModules task workers events sources session).1.disk.IsDistinct := by
  have hworked := task.work_distinct workers events sources
    { root := task.config.root, indexPath := task.config.indexPath, dryRun := task.dryRun } h
  simp only [generateModules]
  generalize task.work workers events sources session _ = worked at hworked
  obtain ⟨next, (aborted | error) | report⟩ := worked
  · exact hworked
  · exact hworked
  · have hmerged := mergeIndex_distinct task.faults.index report hworked
    dsimp only
    generalize mergeIndex task.faults.index next report = merged at hmerged
    obtain ⟨last, error | final⟩ := merged
    · exact hmerged
    · exact hmerged.note _

/-- Whatever a run comes to, no directory has two entries of one name afterwards if none had before. -/
theorem generate_distinct (request : Request) (circumstances : Circumstances)
    (h : session.disk.IsDistinct) : (generate session request circumstances).1.disk.IsDistinct := by
  rcases begins_or_stops session request with ⟨config, sources, hbegins⟩ | ⟨told, error, hstops⟩
  · rw [hbegins.generate_eq]
    exact generateModules_distinct _ _ _ _ ((h.note _).note _)
  · rw [hstops request rfl]
    exact h.noteAll _

end Generation

end FfiBindings
