import FfiBindings.Generation.Task
import FfiBindings.Proofs.Journal
import FfiBindings.Proofs.Tree.Refusal

/-!
What a step of the work on a module may change, whatever fails: directories come to the way of its binding, a
file to the place of the binding, and the log file grows (`advance_changes`). The journal keeps its handlers.
-/

set_option autoImplicit false
set_option relaxedAutoImplicit false

namespace FfiBindings.Generation.Task

open Disk

variable (task : Task) (source : SourceModule)

/-- The directory that is made for a binding, as far as the medium lets the making of it be tried. -/
def tried : Path :=
  ⟨(task.target source).parent.anchor, (task.target source).parent.parts.take
    ((task.target source).parent.parts.length - ((task.faults.directory source).map Prod.snd).getD 0)⟩

theorem tried_parent (task : Task) (source : SourceModule) :
    (task.tried source).parts <+: (task.target source).parent.parts :=
  List.take_prefix _ _

theorem tried_prefix (task : Task) (source : SourceModule) :
    (task.tried source).parts <+: (task.target source).parts :=
  (task.tried_parent source).trans (List.dropLast_prefix _)

/-- Where a step may bring a file: to the place of the binding, or over a log file. -/
def StepFiles (log : List Location) (disk : Disk) (location : Location) : Prop :=
  location = disk.place (task.target source) ∨ (location ∈ log ∧ disk.tree.FileAt location)

/-- Where a step may bring a directory. -/
def StepDirectories (disk : Disk) (location : Location) : Prop :=
  OnTheWay (disk.start (task.tried source)) (task.tried source).parts location

variable {task source} {session : Session} {disk : Disk}

theorem makeDirectory_eq (task : Task) (source : SourceModule) (disk : Disk) :
    task.makeDirectory source disk =
      ((disk.makeDirectories (task.tried source)).1,
        (disk.makeDirectories (task.tried source)).2.or
          ((task.faults.directory source).map Prod.fst)) := by
  unfold makeDirectory tried
  rcases task.faults.directory source with _ | ⟨error, untried⟩
  · simp only [Option.map_none, Option.getD_none, Nat.sub_zero, List.take_length, Option.or_none]
  · simp only [Option.map_some, Option.getD_some]
    rcases disk.makeDirectories ⟨(task.target source).parent.anchor,
      (task.target source).parent.parts.take
        ((task.target source).parent.parts.length - untried)⟩ with ⟨made, _ | failure⟩ <;> rfl

/-- What the journal writes, a step may write. -/
theorem changes_of_logged {log : List Location} {after : Disk} (task : Task) (source : SourceModule)
    (h : Session.OnlyLogged log disk after) (through : Location → Prop) :
    Changes (task.StepFiles source log disk) through disk after :=
  Changes.mono h (fun _ hlog => .inr hlog) fun _ hnone => hnone.elim

/-- What the first step comes to for a language, by what making the directory comes to. -/
def preparation (task : Task) (source : SourceModule) (language : Language) :
    Option FileError → Except Outcome Language
  | none => .ok language
  | some error =>
    .error (task.refused source s!"cannot create {(task.target source).parent.toText}" error)

/-- Where nothing fails, the directory of the binding is there afterwards. -/
theorem isDirectory_of_tried (hcurrent : disk.HasCurrent)
    (h : (disk.makeDirectories (task.tried source)).2.or
      ((task.faults.directory source).map Prod.fst) = none) :
    (disk.makeDirectories (task.tried source)).1.isDirectory (task.target source).parent = true := by
  obtain ⟨hmade, hfault⟩ := Option.or_eq_none_iff.1 h
  have htried : task.tried source = (task.target source).parent := by
    rw [tried, Option.map_eq_none_iff.1 hfault, Option.map_none, Option.getD_none, Nat.sub_zero,
      List.take_length]
  rw [htried] at hmade ⊢
  exact isDirectory_makeDirectories hcurrent hmade

theorem prepare_of_choose {language : Language} (hwrites : task.dryRun = false)
    (hlanguage : Language.choose? task.languages source.path = some language) (session : Session) :
    task.prepare source session =
      ({ session with disk := (session.disk.makeDirectories (task.tried source)).1 },
        task.preparation source language ((session.disk.makeDirectories (task.tried source)).2.or
          ((task.faults.directory source).map Prod.fst))) := by
  have hmade := task.makeDirectory_eq source session.disk
  simp only [prepare, hlanguage, hwrites, Bool.false_eq_true, if_false, hmade]
  rcases (session.disk.makeDirectories (task.tried source)).2.or
    ((task.faults.directory source).map Prod.fst) with _ | error <;> rfl

theorem prepare_dry (hdry : task.dryRun = true) (session : Session) :
    (task.prepare source session).1 = session := by
  unfold prepare
  split
  · rfl
  · rw [if_pos hdry]

/-- The first step makes directories. -/
theorem prepare_grows (task : Task) (source : SourceModule) (hcurrent : session.disk.HasCurrent) :
    Grows session.disk (task.prepare source session).1.disk (task.StepDirectories source session.disk) := by
  cases hlanguage : Language.choose? task.languages source.path with
  | none =>
    simp only [prepare, hlanguage]
    exact .refl _ _
  | some language =>
    by_cases hdry : task.dryRun = true
    · rw [prepare_dry hdry]
      exact .refl _ _
    · rw [prepare_of_choose (by simpa using hdry) hlanguage]
      exact makeDirectories_grows hcurrent (task.tried source)

/-- The second step changes the log file alone. -/
theorem read_onlyLogged (task : Task) (source : SourceModule) (language : Language) (session : Session) :
    Session.OnlyLogged session.logLocations session.disk (task.read source language session).1.disk := by
  unfold read
  split
  · exact Changes.refl _ _ _
  · exact Session.noteAll_changes session _

/-- A source that is found is read the same where no file comes to its place. -/
theorem readSource_of_changes {files through : Location → Prop} {after : Disk}
    (hfound : ∃ content mode, disk.find? source.path = some (.file content mode))
    (h : Changes files through disk after) (hfile : ¬ files (disk.place source.path)) :
    task.readSource source after = task.readSource source disk := by
  obtain ⟨content, mode, hfound⟩ := hfound
  have hagain := h.find?_eq_file hfile hfound
  unfold readSource
  rw [read_eq_ok_iff.2 ⟨mode, hfound⟩, read_eq_ok_iff.2 ⟨mode, hagain⟩]

/-! ### Writing a binding -/

/-- The bytes that an attempt to write a text brings to the disk, if it brings any. -/
def attempted (task : Task) (source : SourceModule) (layout : Layout) : Option ByteArray :=
  match task.writeFault source layout with
  | none => some layout.bytes
  | some (_, left) => left

/-- What is seen in the place of a binding after an attempt to write it, where the other was seen before. -/
def leftBy (task : Task) (source : SourceModule) (disk : Disk) (layout : Layout) (sight : Option Sight) :
    Option Sight :=
  if sight = some .directory then sight
  else match task.attempted source layout with
    | none => sight
    | some bytes => some (disk.overwritten bytes sight)

theorem leftBy_directory (task : Task) (source : SourceModule) (disk : Disk) (layout : Layout)
    (sight : Option Sight) :
    task.leftBy source disk layout sight = some .directory ↔ sight = some .directory := by
  unfold leftBy
  split
  · rfl
  · rename_i hplace
    split
    · rfl
    · rw [Option.some.injEq]
      refine iff_of_false (fun h => ?_) hplace
      unfold overwritten at h
      split at h <;> exact absurd h (by simp)

/-- Another attempt to write the same changes nothing. -/
theorem leftBy_leftBy (task : Task) (source : SourceModule) (disk : Disk) (layout : Layout)
    (sight : Option Sight) :
    task.leftBy source disk layout (task.leftBy source disk layout sight) =
      task.leftBy source disk layout sight := by
  by_cases hplace : sight = some .directory
  · simp only [leftBy, hplace, if_true]
  · have hagain := mt (leftBy_directory task source disk layout sight).1 hplace
    conv_lhs => rw [leftBy, if_neg hagain]
    rw [leftBy, if_neg hplace]
    rcases task.attempted source layout with _ | bytes
    · rfl
    · rcases sight with _ | ⟨old, mode⟩ | _ <;> rfl

theorem writeContent_eq (task : Task) (source : SourceModule) (layout : Layout) (disk : Disk) :
    task.writeContent source layout disk =
      match task.attempted source layout with
      | none => (disk, (task.writeFault source layout).map Prod.fst)
      | some bytes =>
        match disk.write (task.target source) bytes with
        | .ok after => (after, (task.writeFault source layout).map Prod.fst)
        | .error error => (disk, ((task.writeFault source layout).map Prod.fst).or (some error)) := by
  unfold writeContent attempted
  rcases task.writeFault source layout with _ | ⟨error, _ | left⟩
  · rfl
  · rfl
  · cases hwrite : disk.write (task.target source) left with
    | ok after => simp only [hwrite, Option.map_some]
    | error failure => simp only [hwrite, Option.map_some, Option.some_or]

/-- What an attempt to write comes to where the place of the binding is reached. -/
theorem writeContent_spec (task : Task) (source : SourceModule) (hcurrent : disk.HasCurrent)
    {location : Location} (hlocate : disk.locate (task.target source) = .ok location) (layout : Layout) :
    (task.writeContent source layout disk).2 = ((task.writeFault source layout).map Prod.fst).or
        (if disk.tree.sight? location = some .directory then
          some (.refused .isADirectory (task.target source)) else none) ∧
      ShowsAt disk (task.writeContent source layout disk).1 location
        (task.leftBy source disk layout (disk.tree.sight? location)) := by
  rw [writeContent_eq, leftBy]
  cases hattempted : task.attempted source layout with
  | none =>
    obtain ⟨error, hfault⟩ : ∃ error, task.writeFault source layout = some (error, none) := by
      unfold attempted at hattempted
      rcases hwrite : task.writeFault source layout with _ | ⟨error, _ | left⟩
      · simp [hwrite] at hattempted
      · exact ⟨error, rfl⟩
      · simp [hwrite] at hattempted
    rw [hfault, ite_self]
    exact ⟨rfl, ShowsAt.refl disk location⟩
  | some bytes =>
    rcases write_spec hcurrent hlocate bytes with ⟨hplace, hrefused⟩ | ⟨hplace, after, hwritten, hshows⟩
    · simp only [hrefused, if_pos hplace]
      rw [true_and]
      exact ShowsAt.refl disk location
    · simp only [hwritten, if_neg hplace, Option.or_none, true_and]
      exact hshows

theorem writeContent_of_error (task : Task) (source : SourceModule) {error : FileError}
    (hlocate : disk.locate (task.target source) = .error error) (layout : Layout) :
    (task.writeContent source layout disk).1 = disk := by
  rw [writeContent_eq]
  split
  · rfl
  · simp only [Disk.write, hlocate]

theorem writeContent_changes (task : Task) (source : SourceModule) (hcurrent : disk.HasCurrent)
    (layout : Layout) (log : List Location) (through : Location → Prop) :
    Changes (task.StepFiles source log disk) through disk
      (task.writeContent source layout disk).1 := by
  cases hlocate : disk.locate (task.target source) with
  | error error =>
    rw [task.writeContent_of_error source hlocate]
    exact .refl _ _ _
  | ok location =>
    obtain ⟨-, hshows⟩ := task.writeContent_spec source hcurrent hlocate layout
    obtain rfl := locate_eq_place hlocate
    refine ⟨hshows.current, hshows.umask, fun other => ?_⟩
    rw [hshows.sight]
    by_cases hother : other = disk.place (task.target source)
    · rw [if_pos hother, leftBy, ← hother]
      split
      · exact .inl rfl
      · rename_i hplace
        rcases task.attempted source layout with _ | bytes
        · exact .inl rfl
        · refine .inr (.inr ⟨.inl hother, hplace, ?_⟩)
          rcases hsight : disk.tree.sight? other with _ | ⟨old, mode⟩ | _
          · exact ⟨bytes, disk.newFileMode, rfl⟩
          · exact ⟨bytes, mode, rfl⟩
          · exact absurd hsight hplace
    · rw [if_neg hother]
      exact .inl rfl

/-- Where a step may bring a file after it has brought some, it might from the beginning. -/
theorem stepFiles_of_changes {log : List Location} {through : Location → Prop} {after : Disk}
    {location : Location} (h : Changes (task.StepFiles source log disk) through disk after)
    (hfile : task.StepFiles source log after location) : task.StepFiles source log disk location := by
  rcases hfile with hplace | ⟨hlog, hthere⟩
  · exact .inl (by rw [hplace, h.keeps.place_eq])
  · exact (h.fileAt hthere).elim (fun hbefore => .inr ⟨hlog, hbefore⟩) id

/-- What the journal says of a binding that is written. -/
def writtenMessage (task : Task) (source : SourceModule) (layout : Layout) : Message :=
  ⟨.debug, journalName, s!"Wrote {(task.target source).toText} ({layout.names.length} functions)"⟩

/-- What the last step comes to, by what writing comes to. -/
def writing (task : Task) (source : SourceModule) (layout : Layout) : Option FileError → Outcome
  | none =>
    if layout.isHalved then .stopped (.file Layout.noEncoding)
    else .bound (task.entry source layout) (task.target source)
  | some error => task.refused source s!"cannot write {(task.target source).toText}" error

/-- What the journal makes of writing, by what it comes to. -/
def noteWriting (task : Task) (source : SourceModule) (layout : Layout) (session : Session) :
    Option FileError → Session
  | none => if layout.isHalved then session else session.note (task.writtenMessage source layout)
  | some _ => session

theorem noteWriting_changes (task : Task) (source : SourceModule) (layout : Layout) (session : Session)
    (result : Option FileError) :
    Session.OnlyLogged session.logLocations session.disk
      (task.noteWriting source layout session result).disk := by
  cases result with
  | some error => exact Changes.refl _ _ _
  | none =>
    rw [noteWriting]
    split
    · exact Changes.refl _ _ _
    · exact Session.note_changes session _

theorem noteWriting_handlers (task : Task) (source : SourceModule) (layout : Layout) (session : Session)
    (result : Option FileError) :
    (task.noteWriting source layout session result).journal.handlers = session.journal.handlers := by
  cases result with
  | some error => rfl
  | none =>
    rw [noteWriting]
    split
    · rfl
    · exact session.note_handlers _

theorem write_eq (hwrites : task.dryRun = false) (layout : Layout) (session : Session) :
    task.write source layout session =
      (task.noteWriting source layout
          { session with disk := (task.writeContent source layout session.disk).1 }
          (task.writeContent source layout session.disk).2,
        task.writing source layout (task.writeContent source layout session.disk).2) := by
  simp only [write, hwrites, Bool.false_eq_true, if_false]
  rcases task.writeContent source layout session.disk with ⟨disk, _ | error⟩
  · rw [noteWriting, writing]
    cases layout.isHalved <;> rfl
  · rfl

theorem write_dry (hdry : task.dryRun = true) (layout : Layout) (session : Session) :
    task.write source layout session =
      (session, .bound (task.entry source layout) (task.target source)) := by
  simp only [write, if_pos hdry]

/-- The last step changes the binding and the log file. -/
theorem write_changes (task : Task) (source : SourceModule) (hcurrent : session.disk.HasCurrent)
    (layout : Layout) (through : Location → Prop) :
    Changes (task.StepFiles source session.logLocations session.disk) through session.disk
      (task.write source layout session).1.disk := by
  by_cases hdry : task.dryRun = true
  · rw [write_dry hdry]
    exact .refl _ _ _
  · have hfirst := task.writeContent_changes source hcurrent layout session.logLocations through
    rw [write_eq (by simpa using hdry)]
    have hlogged := task.noteWriting_changes source layout
      { session with disk := (task.writeContent source layout session.disk).1 }
      (task.writeContent source layout session.disk).2
    have hsecond := task.changes_of_logged source hlogged through
    exact hfirst.trans (hsecond.mono (fun _ => stepFiles_of_changes hfirst) fun _ h => h)

/-- What the binding shows after the last step, where its place is reached and no log file is there. -/
theorem sight?_write (hwrites : task.dryRun = false) (hcurrent : session.disk.HasCurrent)
    {location : Location} (hlocate : session.disk.locate (task.target source) = .ok location)
    (hlog : location ∉ session.logLocations) (layout : Layout) :
    (task.write source layout session).1.disk.tree.sight? location =
      task.leftBy source session.disk layout (session.disk.tree.sight? location) := by
  obtain ⟨-, hshows⟩ := task.writeContent_spec source hcurrent hlocate layout
  rw [write_eq hwrites]
  have hlogged := task.noteWriting_changes source layout
    { session with disk := (task.writeContent source layout session.disk).1 }
    (task.writeContent source layout session.disk).2
  rw [hlogged.sight?_eq (fun hthere => hlog hthere.1) not_false]
  exact hshows.here

/-! ### Any step -/

/-- The stage after the first step. -/
def afterPreparing : Except Outcome Language → Stage
  | .error outcome => .finished outcome
  | .ok language => .prepared language

/-- The stage after the second step. -/
def afterReading : Except Outcome Layout → Stage
  | .error outcome => .finished outcome
  | .ok layout => .laidOut layout

theorem afterPreparing_eq_finished {result : Except Outcome Language} {outcome : Outcome} :
    afterPreparing result = .finished outcome ↔ result = .error outcome := by
  cases result <;> simp [afterPreparing]

theorem afterReading_eq_finished {result : Except Outcome Layout} {outcome : Outcome} :
    afterReading result = .finished outcome ↔ result = .error outcome := by
  cases result <;> simp [afterReading]

theorem advance_waiting_eq (task : Task) (source : SourceModule) (session : Session) :
    task.advance source session .waiting =
      ((task.prepare source session).1, afterPreparing (task.prepare source session).2) := by
  rw [advance]
  rcases task.prepare source session with ⟨next, outcome | language⟩ <;> rfl

theorem advance_prepared_eq (task : Task) (source : SourceModule) (session : Session)
    (language : Language) :
    task.advance source session (.prepared language) =
      ((task.read source language session).1, afterReading (task.read source language session).2) := by
  rw [advance]
  rcases task.read source language session with ⟨next, outcome | layout⟩ <;> rfl

theorem advance_laidOut_eq (task : Task) (source : SourceModule) (session : Session) (layout : Layout) :
    task.advance source session (.laidOut layout) =
      ((task.write source layout session).1, .finished (task.write source layout session).2) :=
  rfl

/-- The frame of a step. -/
theorem advance_changes (task : Task) (source : SourceModule) (hcurrent : session.disk.HasCurrent)
    (stage : Stage) :
    Changes (task.StepFiles source session.logLocations session.disk)
      (task.StepDirectories source session.disk) session.disk
      (task.advance source session stage).1.disk := by
  cases stage with
  | waiting =>
    rw [advance_waiting_eq]
    exact .of_grows (task.prepare_grows source hcurrent)
  | prepared language =>
    rw [advance_prepared_eq]
    exact task.changes_of_logged source (task.read_onlyLogged source language session) _
  | laidOut layout =>
    rw [advance_laidOut_eq]
    exact task.write_changes source hcurrent layout _
  | finished outcome => exact .refl _ _ _

/-- The journal keeps its handlers in a step. -/
theorem advance_handlers (task : Task) (source : SourceModule) (session : Session) (stage : Stage) :
    (task.advance source session stage).1.journal.handlers = session.journal.handlers := by
  cases stage with
  | waiting =>
    rw [advance_waiting_eq]
    unfold prepare
    split
    · rfl
    · split
      · rfl
      · split <;> rfl
  | prepared language =>
    rw [advance_prepared_eq]
    unfold read
    split
    · rfl
    · exact session.noteAll_handlers _
  | laidOut layout =>
    rw [advance_laidOut_eq]
    by_cases hdry : task.dryRun = true
    · rw [write_dry hdry]
    · rw [write_eq (by simpa using hdry)]
      exact task.noteWriting_handlers source layout _ _
  | finished outcome => rfl

end FfiBindings.Generation.Task
