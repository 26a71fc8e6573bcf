import FfiBindings.Proofs.Journal
import FfiBindings.Report

/-!
A journal over its history. It is set up, any number of times, and told messages in between; each message is told under
the setting that came last (`tellings`). The console shows the lines of all messages that the setting lets through, each
once and in their order, and so does the log file of that setting at its end, behind all that it held (`Logged`). No
other file changes, and there are never more than two handlers (`history_logged`). One step keeps a session to its
setting (`happen_follows`), and so does a history (`happenAll_follows`); how the session stood before it was set up for
the first time does not matter (`begins_follows`).
-/

set_option autoImplicit false
set_option relaxedAutoImplicit false

namespace FfiBindings

open Disk

namespace Journal

/-- What is done to a journal: it is set up, or it is told something at some time. Every part of the program tells what
it has to the one journal. -/
inductive Event where
  | setUp (verbose : Bool) (logFile : Option Path)
  | told (clock : String) (message : Message)
  | diagnosed (clock source : String) (diagnostic : Diagnostic)

/-- The level from which on messages are let through, and the place of the log file. -/
structure Setting where
  level : Level
  file : Option Location

/-- A message, when it is told and under which setting. -/
structure Telling where
  setting : Setting
  clock : String
  message : Message

namespace Setting

/-- What setting a journal up comes to, seen from the current directory. -/
def ofSetUp (current : Location) (verbose : Bool) (logFile : Option Path) : Setting where
  level := if verbose then .debug else .info
  file := logFile.map fun path => Path.walkUpAndDown [] (path.absolute current).parts

end Setting

def Telling.isHeard (telling : Telling) : Bool :=
  telling.setting.level.rank ≤ telling.message.level.rank

/-- The messages of a history, each under the setting that came last before it. -/
def tellings (current : Location) (setting : Setting) : List Event → List Telling
  | [] => []
  | .setUp verbose logFile :: events => tellings current (.ofSetUp current verbose logFile) events
  | .told clock message :: events => ⟨setting, clock, message⟩ :: tellings current setting events
  | .diagnosed clock source diagnostic :: events =>
    ⟨setting, clock, diagnostic.logMessage source⟩ :: tellings current setting events

/-- The setting that came last. -/
def lastSetting (current : Location) (setting : Setting) : List Event → Setting
  | [] => setting
  | .setUp verbose logFile :: events => lastSetting current (.ofSetUp current verbose logFile) events
  | _ :: events => lastSetting current setting events

/-- The places of all log files. -/
def logPlaces (current : Location) : List Event → List Location
  | [] => []
  | .setUp verbose logFile :: events =>
    (Setting.ofSetUp current verbose logFile).file.toList ++ logPlaces current events
  | _ :: events => logPlaces current events

def consoleText (tellings : List Telling) : String :=
  String.join ((tellings.filter Telling.isHeard).map fun telling => consoleLine telling.message)

/-- What the file at a place is told. -/
def fileText (location : Location) (tellings : List Telling) : String :=
  String.join ((tellings.filter fun telling => telling.isHeard && telling.setting.file == some location).map
    fun telling => fileLine telling.clock telling.message)

variable {current : Location} {setting : Setting}

theorem tellings_cons (event : Event) (events : List Event) :
    tellings current setting (event :: events) =
      tellings current setting [event] ++ tellings current (lastSetting current setting [event]) events := by
  cases event <;> rfl

theorem lastSetting_cons (event : Event) (events : List Event) :
    lastSetting current setting (event :: events) =
      lastSetting current (lastSetting current setting [event]) events := by
  cases event <;> rfl

theorem logPlaces_cons (event : Event) (events : List Event) :
    logPlaces current (event :: events) = logPlaces current [event] ++ logPlaces current events := by
  cases event <;> simp [logPlaces]

theorem consoleText_singleton (telling : Telling) :
    consoleText [telling] = if telling.isHeard then consoleLine telling.message else "" := by
  unfold consoleText
  rw [List.filter_cons, List.filter_nil]
  split <;> simp

theorem consoleText_append (first second : List Telling) :
    consoleText (first ++ second) = consoleText first ++ consoleText second := by
  unfold consoleText
  rw [List.filter_append, List.map_append, String.join_append]

theorem fileText_singleton (location : Location) (telling : Telling) :
    fileText location [telling] =
      if telling.isHeard && telling.setting.file == some location then fileLine telling.clock telling.message
      else "" := by
  unfold fileText
  rw [List.filter_cons, List.filter_nil]
  split <;> simp

theorem fileText_append (location : Location) (first second : List Telling) :
    fileText location (first ++ second) = fileText location first ++ fileText location second := by
  unfold fileText
  rw [List.filter_append, List.map_append, String.join_append]

end Journal

namespace Session

open Journal

/-- The session at another time. -/
def atTime (session : Session) (clock : String) : Session :=
  { session with journal := { session.journal with clock } }

/-- The session as the event leaves it; a log file may be refused. -/
def happen (session : Session) : Event → Option Session
  | .setUp verbose logFile =>
    match session.configure verbose logFile with
    | (after, none) => some after
    | (_, some _) => none
  | .told clock message => some ((session.atTime clock).note message)
  | .diagnosed clock source diagnostic => some ((session.atTime clock).note (diagnostic.logMessage source))

/-- A history in which no log file is refused. -/
def happenAll (session : Session) (events : List Event) : Option Session :=
  events.foldlM happen session

end Session

/-! ### What becomes of the files -/

namespace Disk

variable {disk middle after : Disk} {opened more : Location → Prop} {text further : Location → String}

/-- Every file of the first disk goes on with what it is told, a log file that was not there holds just that, and no
other file comes; the directories stay. -/
structure Logged (opened : Location → Prop) (text : Location → String) (disk after : Disk) : Prop where
  keeps : KeepsDirectories disk after
  umask : after.umask = disk.umask
  file : ∀ location content mode, disk.tree.sight? location = some (.file content mode) →
    after.tree.sight? location = some (.file (content ++ (text location).toUTF8) mode)
  new : ∀ location, opened location → ¬disk.tree.FileAt location →
    disk.tree.sight? location = none ∧
      after.tree.sight? location = some (.file (text location).toUTF8 disk.newFileMode)
  silent : ∀ location, ¬opened location → ¬disk.tree.FileAt location →
    text location = "" ∧ ¬after.tree.FileAt location

namespace Logged

theorem append_nothing (content : ByteArray) : content ++ "".toUTF8 = content := ByteArray.append_empty

theorem append_texts (content : ByteArray) (first second : String) :
    content ++ first.toUTF8 ++ second.toUTF8 = content ++ (first ++ second).toUTF8 := by
  rw [ByteArray.append_assoc]
  exact congrArg (content ++ ·) String.toByteArray_append.symm

/-- Nothing happens where only files that are there are opened. -/
theorem of_there (hopened : ∀ location, opened location → disk.tree.FileAt location)
    (htext : ∀ location, text location = "") : Logged opened text disk disk where
  keeps := .refl disk
  umask := rfl
  file location content _ hfile := by rw [hfile, htext location, append_nothing content]
  new location hhere hnofile := absurd (hopened location hhere) hnofile
  silent location _ hnone := ⟨htext location, hnone⟩

theorem fileAt (h : Logged opened text disk after) {location : Location} (hthere : disk.tree.FileAt location) :
    after.tree.FileAt location := by
  obtain ⟨content, mode, hfile⟩ := hthere
  exact ⟨_, _, h.file location content mode hfile⟩

theorem fileAt_of_opened (h : Logged opened text disk after) {location : Location} (hopened : opened location) :
    after.tree.FileAt location := by
  by_cases hthere : disk.tree.FileAt location
  · exact h.fileAt hthere
  · exact ⟨_, _, (h.new location hopened hthere).2⟩

theorem trans (hfirst : Logged opened text disk middle) (hsecond : Logged more further middle after) :
    Logged (fun location => opened location ∨ more location) (fun location => text location ++ further location)
      disk after where
  keeps := hfirst.keeps.trans hsecond.keeps
  umask := hsecond.umask.trans hfirst.umask
  file location content mode hfile := by
    rw [hsecond.file location _ mode (hfirst.file location content mode hfile), append_texts]
  new location hopened hnofile := by
    by_cases hhere : opened location
    · obtain ⟨hnone, hnew⟩ := hfirst.new location hhere hnofile
      refine ⟨hnone, (hsecond.file location _ _ hnew).trans ?_⟩
      exact congrArg (fun held => some (Sight.file held disk.newFileMode)) String.toByteArray_append.symm
    · obtain ⟨hnothing, hmiddle⟩ := hfirst.silent location hhere hnofile
      obtain ⟨hnone, hnew⟩ := hsecond.new location (hopened.resolve_left hhere) hmiddle
      have hmode : middle.newFileMode = disk.newFileMode := by rw [newFileMode, newFileMode, hfirst.umask]
      refine ⟨?_, by rw [hnew, hnothing, String.empty_append, hmode]⟩
      rcases Tree.sight?_cases disk.tree location with hbefore | hdirectory | hfile
      · exact hbefore
      · rw [hfirst.keeps.directory location hdirectory] at hnone
        exact absurd hnone (by simp)
      · exact absurd hfile hnofile
  silent location hopened hnofile := by
    rw [not_or] at hopened
    obtain ⟨hnothing, hmiddle⟩ := hfirst.silent location hopened.1 hnofile
    obtain ⟨hmore, hafter⟩ := hsecond.silent location hopened.2 hmiddle
    exact ⟨by rw [hnothing, hmore, String.empty_append], hafter⟩

theorem congr (h : Logged opened text disk after) (hopened : ∀ location, opened location ↔ more location)
    (htext : ∀ location, text location = further location) : Logged more further disk after := by
  obtain rfl : opened = more := funext fun location => propext (hopened location)
  obtain rfl : text = further := funext htext
  exact h

/-- Directories that are made take part in nothing. -/
theorem of_grows {through : Location → Prop} (h : Grows disk after through) :
    Logged (fun _ => False) (fun _ => "") disk after where
  keeps := h.keeps
  umask := h.umask
  file _ content _ hfile := (h.sight?_eq_some hfile).trans (by rw [append_nothing content])
  new _ hopened := hopened.elim
  silent location _ hnofile := by
    refine ⟨rfl, fun hfile => hnofile ?_⟩
    obtain ⟨content, mode, hthere⟩ := hfile
    exact ⟨content, mode, h.sight?_eq_file_iff.1 hthere⟩

/-- An empty file comes to a place. -/
theorem of_empty {location : Location} (hvacant : disk.tree.sight? location = none)
    (h : ShowsAt disk after location (some (.file .empty disk.newFileMode))) :
    Logged (fun place => location = place) (fun _ => "") disk after where
  keeps := h.keeps (by rw [hvacant]; simp)
  umask := h.umask
  file place content mode hfile := by
    have hother : place ≠ location := by
      rintro rfl
      rw [hvacant] at hfile
      exact absurd hfile (by simp)
    rw [h.sight, if_neg hother, hfile, append_nothing]
  new place hplace _ := by
    subst hplace
    exact ⟨hvacant, h.here⟩
  silent place hplace hnofile := by
    refine ⟨rfl, fun hfile => hnofile ?_⟩
    rwa [Tree.FileAt, h.sight, if_neg (Ne.symm hplace)] at hfile

/-- A text comes to the end of a file that is there. -/
theorem of_appended {location : Location} {content : ByteArray} {mode : Nat} {line : String}
    (hsight : disk.tree.sight? location = some (.file content mode))
    (h : ShowsAt disk after location (some (.file (content ++ line.toUTF8) mode))) :
    Logged (fun _ => False) (fun place => if some location == some place then line else "") disk after where
  keeps := h.keeps (by rw [hsight]; simp)
  umask := h.umask
  file place held old hfile := by
    by_cases hplace : place = location
    · subst hplace
      rw [hsight] at hfile
      obtain ⟨rfl, rfl⟩ := Sight.file.inj (Option.some.inj hfile)
      rw [h.here]
      simp
    · rw [h.sight, if_neg hplace, hfile, if_neg (by simpa using Ne.symm hplace), append_nothing]
  new _ hopened := hopened.elim
  silent place _ hnofile := by
    have hplace : place ≠ location := by
      rintro rfl
      exact hnofile ⟨content, mode, hsight⟩
    refine ⟨if_neg (by simpa using Ne.symm hplace), fun hfile => hnofile ?_⟩
    rwa [Tree.FileAt, h.sight, if_neg hplace] at hfile

end Logged

end Disk

namespace Session

open Journal

variable {session after : Session} {setting : Setting} {verbose : Bool} {logFile : Option Path}

/-! ### One step -/

/-- A session that is told under the setting, with its log file there. -/
structure Follows (setting : Setting) (session : Session) : Prop where
  threshold : session.journal.threshold = setting.level
  handlers : session.journal.handlers = handlersFor setting.level setting.file
  there : ∀ location, setting.file = some location → session.disk.tree.FileAt location
  current : session.disk.HasCurrent

theorem Follows.atTime (h : Follows setting session) (clock : String) : Follows setting (session.atTime clock) :=
  ⟨h.threshold, h.handlers, h.there, h.current⟩

theorem openLog_logged {disk after : Disk} {path : Path} {location : Location} (hcurrent : disk.HasCurrent)
    (h : openLog disk path = (after, .ok location)) :
    location = Path.walkUpAndDown [] (path.absolute disk.current).parts ∧
      Logged (fun place => location = place) (fun _ => "") disk after := by
  obtain ⟨made, hmake, hlocate, hopened⟩ := exists_of_openLog hcurrent h
  have hgrows := makeDirectories_grows hcurrent path.parent
  rw [hmake] at hgrows
  have hmade := Logged.of_grows hgrows
  refine ⟨locate_eq_place hlocate, ?_⟩
  rcases hopened with ⟨rfl, hfile⟩ | ⟨-, hvacant, hshows⟩
  · have hthere : Logged (fun place => location = place) (fun _ => "") after after :=
      .of_there (fun place hplace => hplace ▸ hfile) fun _ => rfl
    exact (hmade.trans hthere).congr (fun place => by simp) fun _ => String.empty_append
  · exact (hmade.trans (.of_empty hvacant hshows)).congr (fun place => by simp) fun _ => String.empty_append

/-- A session has gone on to another one by opening log files and by telling messages. -/
structure Told (opened : List Location) (tellings : List Telling) (session after : Session) : Prop where
  logged : Logged (· ∈ opened) (fun location => fileText location tellings) session.disk after.disk
  console : after.journal.console = session.journal.console ++ consoleText tellings

namespace Told

theorem refl (session : Session) : Told [] [] session session where
  logged := .of_there (fun _ hnone => absurd hnone List.not_mem_nil) fun _ => rfl
  console := String.append_empty.symm

theorem trans {opened more : List Location} {tellings further : List Telling} {middle : Session}
    (hfirst : Told opened tellings session middle) (hsecond : Told more further middle after) :
    Told (opened ++ more) (tellings ++ further) session after where
  logged := by
    refine (hfirst.logged.trans hsecond.logged).congr (fun location => ?_) fun location => ?_
    · exact List.mem_append.symm
    · exact (fileText_append location tellings further).symm
  console := by
    rw [hsecond.console, hfirst.console, consoleText_append, String.append_assoc]

end Told

theorem configure_follows (hcurrent : session.disk.HasCurrent)
    (h : session.configure verbose logFile = (after, none)) :
    let setting := Setting.ofSetUp session.disk.current verbose logFile
    Follows setting after ∧ Told setting.file.toList [] session after := by
  have hthreshold (disk : Disk) (handlers : List Handler) : ({ disk, journal := { session.journal with
      level := if verbose then .debug else .info, handlers } } : Session).journal.threshold =
        if verbose then .debug else .info := by
    cases verbose <;> rfl
  obtain ⟨disk, file, rfl, ⟨rfl, rfl, rfl⟩ | ⟨path, location, rfl, hopen, rfl⟩⟩ := configure_cases h
  · refine ⟨⟨hthreshold _ _, rfl, fun _ hfile => absurd hfile (by simp [Setting.ofSetUp]), hcurrent⟩, ?_,
      String.append_empty.symm⟩
    exact .of_there (fun _ hnone => absurd hnone List.not_mem_nil) fun _ => rfl
  · obtain ⟨rfl, hlogged⟩ := openLog_logged hcurrent hopen
    refine ⟨⟨hthreshold _ _, rfl, fun other hother => ?_, hlogged.keeps.hasCurrent hcurrent⟩, ?_,
      String.append_empty.symm⟩
    · exact hlogged.fileAt_of_opened (Option.some.inj hother)
    · refine hlogged.congr (fun place => ?_) fun _ => rfl
      exact Option.some_inj.symm.trans Option.mem_toList.symm

/-- A message that is let through goes to the console and to the log file, any other nowhere. -/
theorem note_eq (h : Follows setting session) (message : Message) :
    session.note message =
      if setting.level.rank ≤ message.level.rank then
        { disk := setting.file.elim session.disk fun location =>
            append session.disk location (fileLine session.journal.clock message)
          journal := { session.journal with console := session.journal.console ++ consoleLine message } }
      else session := by
  unfold note
  rw [h.threshold, h.handlers]
  by_cases hheard : setting.level.rank ≤ message.level.rank
  · rw [if_pos hheard, if_pos hheard]
    cases setting.file <;> simp [handlersFor, hand, hheard, print]
  · rw [if_neg hheard, if_neg hheard]

theorem note_logged (h : Follows setting session) (message : Message) :
    Logged (fun _ => False) (fun location => fileText location [⟨setting, session.journal.clock, message⟩])
      session.disk (session.note message).disk := by
  rw [note_eq h]
  by_cases hheard : setting.level.rank ≤ message.level.rank
  · rw [if_pos hheard]
    cases hplace : setting.file with
    | none =>
      exact .of_there (fun _ hnone => hnone.elim) fun location => by simp [fileText_singleton, hplace]
    | some location =>
      obtain ⟨content, mode, hsight⟩ := h.there location hplace
      refine (Logged.of_appended hsight (append_showsAt hsight _)).congr (fun _ => Iff.rfl) fun other => ?_
      simp [fileText_singleton, Telling.isHeard, hheard, hplace]
  · rw [if_neg hheard]
    exact .of_there (fun _ hnone => hnone.elim) fun location => by simp [fileText_singleton, Telling.isHeard, hheard]

theorem note_follows (h : Follows setting session) (message : Message) :
    Follows setting (session.note message) ∧
      Told [] [⟨setting, session.journal.clock, message⟩] session (session.note message) := by
  have hlogged := note_logged h message
  obtain ⟨console, hjournal⟩ := session.note_journal message
  refine ⟨⟨?_, (note_handlers session message).trans h.handlers, fun location hlocation => ?_,
    hlogged.keeps.hasCurrent h.current⟩, ?_, ?_⟩
  · rw [← h.threshold, hjournal, threshold, threshold]
  · exact hlogged.fileAt (h.there location hlocation)
  · exact hlogged.congr (fun _ => by simp) fun _ => rfl
  · rw [note_eq h, consoleText_singleton]
    by_cases hheard : setting.level.rank ≤ message.level.rank <;> simp [Telling.isHeard, hheard]

theorem setUp_follows (hcurrent : session.disk.HasCurrent)
    (h : session.happen (.setUp verbose logFile) = some after) :
    let setting := Setting.ofSetUp session.disk.current verbose logFile
    Follows setting after ∧ Told setting.file.toList [] session after := by
  simp only [happen] at h
  split at h
  · obtain rfl := Option.some.inj h
    exact configure_follows hcurrent ‹_›
  · exact absurd h (by simp)

/-- Whatever happens, the session is told under the setting that is then the last. -/
theorem happen_follows {event : Event} (h : Follows setting session) (hevent : session.happen event = some after) :
    Follows (lastSetting session.disk.current setting [event]) after ∧
      Told (logPlaces session.disk.current [event]) (tellings session.disk.current setting [event]) session after := by
  cases event with
  | setUp verbose logFile =>
    have hset := setUp_follows h.current hevent
    rwa [logPlaces, logPlaces, List.append_nil]
  | told clock message =>
    obtain rfl := Option.some.inj hevent
    obtain ⟨hfollows, htold⟩ := note_follows (h.atTime clock) message
    exact ⟨hfollows, htold.logged, htold.console⟩
  | diagnosed clock source diagnostic =>
    obtain rfl := Option.some.inj hevent
    obtain ⟨hfollows, htold⟩ := note_follows (h.atTime clock) (diagnostic.logMessage source)
    exact ⟨hfollows, htold.logged, htold.console⟩

/-! ### A history -/

theorem happenAll_follows {events : List Event} (h : Follows setting session)
    (hevents : session.happenAll events = some after) :
    Follows (lastSetting session.disk.current setting events) after ∧
      Told (logPlaces session.disk.current events) (tellings session.disk.current setting events) session after := by
  induction events generalizing session setting with
  | nil =>
    obtain rfl := Option.some.inj hevents
    exact ⟨h, .refl session⟩
  | cons event events ih =>
    obtain ⟨middle, hevent, hrest⟩ := Option.bind_eq_some_iff.1 hevents
    obtain ⟨hmiddle, hfirst⟩ := happen_follows h hevent
    obtain ⟨hlast, hmore⟩ := ih hmiddle hrest
    rw [hfirst.logged.keeps.current] at hlast hmore
    rw [lastSetting_cons, logPlaces_cons, tellings_cons]
    exact ⟨hlast, hfirst.trans hmore⟩

theorem handlerCount_of_follows (h : Follows setting session) :
    session.journal.handlerCount = if setting.file.isSome then 2 else 1 := by
  rw [handlerCount, h.handlers]
  cases setting.file <;> rfl

/-- A history that begins with setting the journal up, from any session, goes on under what it is set up to. -/
theorem begins_follows {events : List Event} (hcurrent : session.disk.HasCurrent)
    (h : session.happenAll (.setUp verbose logFile :: events) = some after) :
    let first := Setting.ofSetUp session.disk.current verbose logFile
    Follows (lastSetting session.disk.current first events) after ∧
      Told (logPlaces session.disk.current (.setUp verbose logFile :: events))
        (tellings session.disk.current first events) session after := by
  intro first
  obtain ⟨middle, hset, hrest⟩ := Option.bind_eq_some_iff.1 h
  obtain ⟨hmiddle, hfirst⟩ := setUp_follows hcurrent hset
  obtain ⟨hlast, hmore⟩ := happenAll_follows hmiddle hrest
  rw [hfirst.logged.keeps.current] at hlast hmore
  exact ⟨hlast, hfirst.trans hmore⟩

/-- A history that succeeds does so from its beginning to any point. -/
theorem exists_of_isPrefix {front events : List Event} (hfront : front <+: events)
    (h : session.happenAll events = some after) : ∃ middle, session.happenAll front = some middle := by
  obtain ⟨back, rfl⟩ := hfront
  rw [happenAll, List.foldlM_append] at h
  obtain ⟨middle, hmiddle, -⟩ := Option.bind_eq_some_iff.1 h
  exact ⟨middle, hmiddle⟩

/-- From the time a journal is set up, whatever was told before, each message is written once, to the console and to
the log file of the setting that came last, or nowhere if that does not let it through. -/
theorem history_logged {events : List Event} (hcurrent : session.disk.HasCurrent)
    (h : session.happenAll (.setUp verbose logFile :: events) = some after) :
    let current := session.disk.current
    let first := Setting.ofSetUp current verbose logFile
    let told := tellings current first events
    after.journal.console = session.journal.console ++ consoleText told ∧
      Logged (· ∈ logPlaces current (.setUp verbose logFile :: events)) (fun location => fileText location told)
        session.disk after.disk ∧
      ∀ front, front <+: events → ∃ middle,
        session.happenAll (.setUp verbose logFile :: front) = some middle ∧
          middle.journal.handlerCount = if (lastSetting current first front).file.isSome then 2 else 1 := by
  intro current first told
  obtain ⟨-, htold⟩ := begins_follows hcurrent h
  refine ⟨htold.console, htold.logged, fun front hfront => ?_⟩
  obtain ⟨middle, hmiddle⟩ := exists_of_isPrefix (List.cons_prefix_cons.2 ⟨rfl, hfront⟩) h
  exact ⟨middle, hmiddle, handlerCount_of_follows (begins_follows hcurrent hmiddle).1⟩

namespace Sample

/-- A session that another log file was open in, and whose journal had come to two handlers for the console. -/
def opened : Session where
  disk := { tree := .file "x.log" "old\n".toUTF8 0o644 .empty }
  journal :=
    { level := .debug, handlers := handlersFor .debug (some ["z.log"]) ++ handlersFor .info none,
      console := "before\n" }

/-- The log file is another one, then none, then the first one again. -/
def changing : List Event :=
  [.told "1" ⟨.debug, "", "a"⟩, .told "2" ⟨.info, "emitter", "b"⟩,
    .setUp true (some ⟨.current, ["logs", "y.log"]⟩), .told "3" ⟨⟨15⟩, "a.b", "c"⟩,
    .setUp false none, .diagnosed "4" "orchestrator" ⟨.warning, "rs/a.rs", "d"⟩,
    .setUp false (some ⟨.current, ["x.log"]⟩), .told "5" ⟨.error, "", "e"⟩]

end Sample

/-- The file that is opened twice holds what it was told both times. -/
theorem history_logged_changing :
    ∃ after, Sample.opened.happenAll (.setUp false (some ⟨.current, ["x.log"]⟩) :: Sample.changing) = some after ∧
      after.journal.console = "before\n[bunbind] INFO b\n[bunbind] Level 15 c\n[bunbind] WARNING rs/a.rs: d\n" ++
        "[bunbind] ERROR e\n" ∧
      after.disk.tree.sight? ["x.log"] =
        some (.file ("old\n".toUTF8 ++ "2 INFO bunbind.emitter: b\n5 ERROR bunbind: e\n".toUTF8) 0o644) ∧
      after.disk.tree.sight? ["logs", "y.log"] = some (.file "3 Level 15 bunbind.a.b: c\n".toUTF8 0o644) ∧
      ¬after.disk.tree.FileAt ["z.log"] ∧ after.journal.handlerCount = 2 := by
  obtain ⟨after, h⟩ : ∃ after, Sample.opened.happenAll (.setUp false (some ⟨.current, ["x.log"]⟩) :: Sample.changing) =
      some after := Option.isSome_iff_exists.1 (by decide +kernel)
  obtain ⟨hconsole, hlogged, hhandlers⟩ := history_logged (hasCurrent_of_top rfl) h
  obtain ⟨last, hlast, hcount⟩ := hhandlers Sample.changing List.prefix_rfl
  obtain rfl : after = last := Option.some.inj (h.symm.trans hlast)
  refine ⟨after, h, hconsole, hlogged.file ["x.log"] "old\n".toUTF8 0o644 rfl, ?_, ?_, hcount⟩
  · exact (hlogged.new ["logs", "y.log"] (by decide) fun hfile => hfile.ne_none rfl).2
  · exact (hlogged.silent ["z.log"] (by decide) fun hfile => hfile.ne_none rfl).2

end Session

end FfiBindings
