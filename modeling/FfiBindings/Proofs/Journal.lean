import FfiBindings.Journal
import FfiBindings.Proofs.Tree.Making

/-!
What a journal leaves on the disk. A message is handed to one handler after the other; each of them leaves the
handlers as they are (`hand_journal`), and what holds of the disk and is kept where a line is appended to a log file
holds when all of them have it (`note_keeps`). So however many messages are noted, only the content of log files changes
(`noteAll_changes`). Once the journal is set up, it has the handlers of that and no others (`configure_cases`); a log
file that is opened is there (`configure_spec`), and what is told to it comes to its end (`IsLogging.note`).
-/

set_option autoImplicit false
set_option relaxedAutoImplicit false

namespace FfiBindings

/-- The log file that a handler appends to. -/
def Handler.location? (handler : Handler) : Option Location :=
  match handler.outlet with
  | .file location true => some location
  | _ => none

namespace Journal

/-- The handlers of a journal that is set up. -/
def handlersFor (level : Level) (file : Option Location) : List Handler :=
  ⟨level, .console⟩ :: (file.map fun location => ⟨level, .file location true⟩).toList

/-- One handler after the other is removed from the front. -/
theorem foldl_removeHandler {handlers : List Handler} {journal : Journal} (h : journal.handlers = handlers) :
    handlers.foldl removeHandler journal = { journal with handlers := [] } := by
  induction handlers generalizing journal with
  | nil => rw [List.foldl_nil, ← h]
  | cons handler handlers ih =>
    have hrest : (journal.removeHandler handler).handlers = handlers := by
      rw [removeHandler, h, List.erase_cons_head]
    rw [List.foldl_cons, ih hrest, removeHandler]

theorem removeHandlers_eq (journal : Journal) : journal.removeHandlers = { journal with handlers := [] } :=
  foldl_removeHandler rfl

end Journal

namespace Session

open Disk

variable {session : Session} {message : Message} {location : Location} {holds : Disk → Prop}

/-- The log files that messages are appended to. -/
def logLocations (session : Session) : List Location :=
  session.journal.handlers.filterMap Handler.location?

theorem mem_logLocations :
    location ∈ session.logLocations ↔
      ∃ handler ∈ session.journal.handlers, handler.location? = some location :=
  List.mem_filterMap

/-- Only the contents of log files change, and they are files before and after. -/
def OnlyLogged (logs : List Location) (disk after : Disk) : Prop :=
  Changes (fun location => location ∈ logs ∧ ∃ content mode,
    disk.tree.sight? location = some (.file content mode)) (fun _ => False) disk after

/-- What is appended comes to the end of a file that is there. -/
theorem append_showsAt {disk : Disk} {location : Location} {content : ByteArray} {mode : Nat}
    (hsight : disk.tree.sight? location = some (.file content mode)) (text : String) :
    ShowsAt disk (append disk location text) location (some (.file (content ++ text.toUTF8) mode)) := by
  have hplace := Tree.FileAt.ne_directory ⟨content, mode, hsight⟩
  have hne : location ≠ [] := fun hnil => hplace (hnil ▸ Tree.sight?_nil disk.tree)
  have hparent := Tree.sight?_dropLast hne (by rw [hsight]; simp)
  rw [append, Tree.sight?_eq_file_iff.1 hsight]
  exact ⟨rfl, rfl, Tree.sight?_putAt_leaf (Tree.isLeaf_file _ _) hne hparent hplace⟩

theorem append_cases (disk : Disk) (location : Location) (text : String) :
    append disk location text = disk ∨
      ∃ content mode, disk.tree.sight? location = some (.file content mode) ∧
        ShowsAt disk (append disk location text) location
          (some (.file (content ++ text.toUTF8) mode)) := by
  cases hentry : disk.tree.find? location with
  | none => exact .inl (by rw [append, hentry])
  | some entry =>
    cases entry with
    | directory inside => exact .inl (by rw [append, hentry])
    | file content mode =>
      have hsight := Tree.sight?_eq_file_iff.2 hentry
      exact .inr ⟨content, mode, hsight, append_showsAt hsight text⟩

/-- A file goes on with what is appended to it, and no other one does. -/
theorem sight?_append {disk : Disk} {content : ByteArray} {mode : Nat}
    (hsight : disk.tree.sight? location = some (.file content mode)) (other : Location) (text : String) :
    (append disk other text).tree.sight? location =
      some (.file (if other = location then content ++ text.toUTF8 else content) mode) := by
  by_cases hsame : other = location
  · subst hsame
    rw [(append_showsAt hsight text).here, if_pos rfl]
  · rw [if_neg hsame]
    rcases append_cases disk other text with hidle | ⟨held, old, -, hshows⟩
    · rw [hidle, hsight]
    · rw [hshows.sight, if_neg (Ne.symm hsame), hsight]

theorem append_changes (disk : Disk) (location : Location) (text : String) :
    OnlyLogged [location] disk (append disk location text) := by
  rcases append_cases disk location text with hsame | ⟨content, mode, hsight, hshows⟩
  · rw [hsame]
    exact Changes.refl _ _ disk
  · exact Changes.of_showsAt hshows (Tree.FileAt.ne_directory ⟨content, mode, hsight⟩)
      ⟨List.mem_singleton_self location, content, mode, hsight⟩

/-- What the journal writes after some changes is one of them, if they may change the log files that were there. -/
theorem OnlyLogged.after_changes {logs : List Location} {files through : Location → Prop}
    {disk middle after : Disk} (hlogged : OnlyLogged logs middle after) (h : Changes files through disk middle)
    (hfiles : ∀ location ∈ logs, disk.tree.FileAt location → files location) :
    Changes files through disk after := by
  refine h.trans (Changes.mono hlogged ?_ fun _ hnone => hnone.elim)
  rintro location ⟨hlog, hthere⟩
  rcases h.fileAt hthere with hbefore | hfile
  · exact hfiles location hlog hbefore
  · exact hfile

theorem OnlyLogged.trans {logs : List Location} {disk middle after : Disk}
    (hfirst : OnlyLogged logs disk middle) (hsecond : OnlyLogged logs middle after) :
    OnlyLogged logs disk after :=
  hsecond.after_changes hfirst fun _ hlog hthere => ⟨hlog, hthere⟩

theorem OnlyLogged.mono {logs more : List Location} {disk after : Disk}
    (h : OnlyLogged logs disk after) (hmore : ∀ location ∈ logs, location ∈ more) :
    OnlyLogged more disk after := by
  refine Changes.mono h ?_ fun _ hnone => hnone
  rintro location ⟨hlog, hthere⟩
  exact ⟨hmore location hlog, hthere⟩

/-! ### Handing a message on -/

/-- A handler shows a message at most; it changes nothing else of the journal. -/
theorem hand_journal (message : Message) (session : Session) (handler : Handler) :
    ∃ console, (hand message session handler).journal = { session.journal with console } := by
  unfold hand
  split
  · split
    · exact ⟨_, rfl⟩
    · exact ⟨_, rfl⟩
    · exact ⟨_, rfl⟩
  · exact ⟨_, rfl⟩

theorem foldl_hand_journal (message : Message) (handlers : List Handler) (session : Session) :
    ∃ console, (handlers.foldl (hand message) session).journal = { session.journal with console } := by
  induction handlers generalizing session with
  | nil => exact ⟨_, rfl⟩
  | cons handler handlers ih =>
    obtain ⟨console, hlater⟩ := ih (hand message session handler)
    obtain ⟨shown, hhanded⟩ := hand_journal message session handler
    exact ⟨console, hlater.trans (by rw [hhanded])⟩

theorem note_journal (session : Session) (message : Message) :
    ∃ console, (session.note message).journal = { session.journal with console } := by
  unfold note
  split
  · split
    · split <;> exact ⟨_, rfl⟩
    · exact foldl_hand_journal message _ session
  · exact ⟨_, rfl⟩

theorem note_handlers (session : Session) (message : Message) :
    (session.note message).journal.handlers = session.journal.handlers := by
  obtain ⟨console, hjournal⟩ := session.note_journal message
  rw [hjournal]

theorem hand_keeps {handler : Handler} (hstart : holds session.disk)
    (happend : ∀ location ∈ handler.location?,
      holds (append session.disk location (Journal.fileLine session.journal.clock message))) :
    holds (hand message session handler).disk := by
  obtain ⟨level, outlet⟩ := handler
  unfold hand
  split
  · rcases outlet with _ | ⟨location, _ | _⟩
    · exact hstart
    · exact hstart
    · exact happend location rfl
  · exact hstart

theorem foldl_hand_keeps {handlers : List Handler} (holds : Disk → Prop) (hstart : holds session.disk)
    (happend : ∀ disk, ∀ handler ∈ handlers, ∀ location ∈ handler.location?, holds disk →
      holds (append disk location (Journal.fileLine session.journal.clock message))) :
    holds (handlers.foldl (hand message) session).disk := by
  induction handlers generalizing session with
  | nil => exact hstart
  | cons handler handlers ih =>
    obtain ⟨console, hjournal⟩ := hand_journal message session handler
    have hhanded : holds (hand message session handler).disk :=
      hand_keeps hstart fun location hlocation =>
        happend session.disk handler List.mem_cons_self location hlocation hstart
    refine ih hhanded fun disk other hother location hlocation hholds => ?_
    rw [hjournal]
    exact happend disk other (List.mem_cons_of_mem handler hother) location hlocation hholds

/-- What is kept where a line is appended to a log file is kept where a message is noted. -/
theorem note_keeps (session : Session) (message : Message) (holds : Disk → Prop) (hstart : holds session.disk)
    (happend : ∀ disk, ∀ location ∈ session.logLocations, holds disk →
      holds (append disk location (Journal.fileLine session.journal.clock message))) :
    holds (session.note message).disk := by
  unfold note
  split
  · split
    · split <;> exact hstart
    · exact foldl_hand_keeps holds hstart fun disk handler hhandler location hlocation =>
        happend disk location (mem_logLocations.2 ⟨handler, hhandler, hlocation⟩)
  · exact hstart

theorem note_changes (session : Session) (message : Message) :
    OnlyLogged session.logLocations session.disk (session.note message).disk := by
  refine session.note_keeps message _ (Changes.refl _ _ session.disk) fun disk location hlocation hsofar => ?_
  refine OnlyLogged.trans hsofar ((append_changes disk location _).mono ?_)
  rintro other hother
  rwa [List.mem_singleton.1 hother]

theorem noteAll_handlers (session : Session) (messages : List Message) :
    (session.noteAll messages).journal.handlers = session.journal.handlers := by
  induction messages generalizing session with
  | nil => rfl
  | cons message messages ih => exact (ih (session.note message)).trans (note_handlers session message)

theorem noteAll_changes (session : Session) (messages : List Message) :
    OnlyLogged session.logLocations session.disk (session.noteAll messages).disk := by
  induction messages generalizing session with
  | nil => exact Changes.refl _ _ session.disk
  | cons message messages ih =>
    have hrest := ih (session.note message)
    rw [logLocations, note_handlers] at hrest
    exact (note_changes session message).trans hrest

theorem replacedAt_disk (session : Session) (location : Location) :
    (session.replacedAt location).disk = session.disk := rfl

/-- A file that takes another one's place is no log file. -/
theorem mem_logLocations_of_replacedAt {file : Location}
    (h : file ∈ (session.replacedAt location).logLocations) : file ∈ session.logLocations := by
  obtain ⟨replaced, hreplaced, hfile⟩ := mem_logLocations.1 h
  obtain ⟨⟨level, outlet⟩, hhandler, rfl⟩ := List.mem_map.1 hreplaced
  refine mem_logLocations.2 ⟨⟨level, outlet⟩, hhandler, ?_⟩
  rcases outlet with _ | ⟨place, _ | _⟩
  · exact hfile
  · exact absurd hfile (by simp [Handler.location?])
  · cases hhere : place != location with
    | true => simpa [Handler.location?, hhere] using hfile
    | false => simp [Handler.location?, hhere] at hfile

/-! ### Setting the journal up -/

/-- The log files are there, if there are any, and are told of what is done. -/
structure IsLogging (session : Session) : Prop where
  threshold : session.logLocations ≠ [] → session.journal.threshold.rank ≤ Level.info.rank
  handler : ∀ handler ∈ session.journal.handlers, ∀ location ∈ handler.location?,
    session.disk.tree.FileAt location ∧ handler.level.rank ≤ Level.info.rank

/-- The file at a location ends with a line. -/
def EndsWith (disk : Disk) (location : Location) (line : String) : Prop :=
  ∃ front mode, disk.tree.sight? location = some (.file (front ++ line.toUTF8) mode)

theorem EndsWith.append {disk : Disk} {line : String} (h : EndsWith disk location line) (other : Location) :
    EndsWith (append disk other line) location line := by
  obtain ⟨front, mode, hsight⟩ := h
  rw [EndsWith, sight?_append hsight]
  split
  · exact ⟨_, mode, rfl⟩
  · exact ⟨front, mode, rfl⟩

/-- What is told to the handler of a log file that is there comes to its end. -/
theorem hand_told {handler : Handler} (hlocation : handler.location? = some location)
    (hheard : handler.level.rank ≤ message.level.rank) (hthere : session.disk.tree.FileAt location) :
    EndsWith (hand message session handler).disk location
      (Journal.fileLine session.journal.clock message) := by
  obtain ⟨level, _ | ⟨place, _ | _⟩⟩ := handler
  · exact absurd hlocation (by simp [Handler.location?])
  · exact absurd hlocation (by simp [Handler.location?])
  · obtain rfl : place = location := Option.some.inj hlocation
    obtain ⟨content, mode, hsight⟩ := hthere
    rw [hand, if_pos hheard]
    exact ⟨content, mode, (append_showsAt hsight _).here⟩

/-- The handlers before it leave the file there, and those behind it bring the same line to its end at most. -/
theorem foldl_hand_told {handlers : List Handler} {handler : Handler} (hhandler : handler ∈ handlers)
    (hlocation : handler.location? = some location) (hheard : handler.level.rank ≤ message.level.rank)
    (hthere : session.disk.tree.FileAt location) :
    EndsWith (handlers.foldl (hand message) session).disk location
      (Journal.fileLine session.journal.clock message) := by
  obtain ⟨before, behind, rfl⟩ := List.append_of_mem hhandler
  rw [List.foldl_append, List.foldl_cons]
  obtain ⟨console, hjournal⟩ := foldl_hand_journal message before session
  have hstill : (before.foldl (hand message) session).disk.tree.FileAt location := by
    refine foldl_hand_keeps (fun disk => disk.tree.FileAt location) hthere ?_
    rintro disk other - place - ⟨content, mode, hsight⟩
    exact ⟨_, _, sight?_append hsight place _⟩
  have htold := hand_told hlocation hheard hstill
  obtain ⟨shown, hhanded⟩ := hand_journal message (before.foldl (hand message) session) handler
  rw [hjournal] at htold hhanded
  refine foldl_hand_keeps (EndsWith · location (Journal.fileLine session.journal.clock message)) htold ?_
  intro disk other _ place _ hended
  rw [hhanded]
  exact hended.append place

/-- What is told to a log file that is there comes to its end, whatever handlers there are besides. -/
theorem IsLogging.note (h : session.IsLogging) (hlog : location ∈ session.logLocations)
    (hlevel : message.level = .info) :
    EndsWith (session.note message).disk location (Journal.fileLine session.journal.clock message) := by
  obtain ⟨handler, hhandler, hlocation⟩ := mem_logLocations.1 hlog
  obtain ⟨hthere, hheard⟩ := h.handler handler hhandler location hlocation
  have hthrough := h.threshold (List.ne_nil_of_mem hlog)
  rw [← hlevel] at hheard hthrough
  have hnoted : session.note message = session.journal.handlers.foldl (hand message) session := by
    rw [Session.note, if_pos hthrough]
    split
    · rename_i hnone
      rw [hnone] at hhandler
      exact absurd hhandler List.not_mem_nil
    · rfl
  rw [hnoted]
  exact foldl_hand_told hhandler hlocation hheard hthere

/-- Opening a log file makes the directories above it and, where nothing is at its place, an empty file. -/
theorem exists_of_openLog {disk after : Disk} {path : Path} {location : Location} (hcurrent : disk.HasCurrent)
    (h : openLog disk path = (after, .ok location)) :
    ∃ made, disk.makeDirectories path.parent = (made, none) ∧
      made.locate (path.absolute disk.current) = .ok location ∧
      ((after = made ∧ made.tree.FileAt location) ∨
        (after = made.putAt location (.file .empty made.newFileMode) ∧ made.tree.sight? location = none ∧
          ShowsAt made after location (some (.file .empty made.newFileMode)))) := by
  unfold openLog at h
  have hgrows := makeDirectories_grows hcurrent path.parent
  revert h hgrows
  rcases disk.makeDirectories path.parent with ⟨made, _ | error⟩
  · intro h hgrows
    have hthere := hgrows.keeps.hasCurrent hcurrent
    dsimp only at h hgrows
    rw [hgrows.current] at h
    refine ⟨made, rfl, ?_⟩
    split at h
    · exact absurd (Prod.mk.inj h).2 (by simp)
    rename_i place hlocate
    split at h
    · rename_i content mode hfile
      obtain ⟨rfl, hplace⟩ := Prod.mk.inj h
      obtain rfl := Except.ok.inj hplace
      exact ⟨hlocate, .inl ⟨rfl, content, mode, Tree.sight?_eq_file_iff.2 hfile⟩⟩
    · exact absurd (Prod.mk.inj h).2 (by simp)
    · rename_i hnone
      obtain ⟨rfl, hplace⟩ := Prod.mk.inj h
      obtain rfl := Except.ok.inj hplace
      have hvacant := Tree.sight?_eq_none_iff.2 hnone
      have hplace : made.tree.sight? place ≠ some .directory := by
        rw [hvacant]
        simp
      obtain ⟨hne, hparent⟩ := sight?_dropLast_of_locate hthere hlocate hplace
      exact ⟨hlocate, .inr ⟨rfl, hvacant, rfl, rfl,
        Tree.sight?_putAt_leaf (Tree.isLeaf_file _ _) hne hparent hplace⟩⟩
  · intro h
    exact absurd (Prod.mk.inj h).2 (by simp)

/-- A log file that is opened is there, on a disk whose names are such as before. -/
theorem openLog_spec {disk after : Disk} {path : Path} {location : Location}
    (hproper : disk.tree.isProper = true) (hcurrent : disk.HasCurrent)
    (hplain : ∀ part ∈ path.parts, Path.isPlainPart part = true)
    (h : openLog disk path = (after, .ok location)) :
    after.tree.isProper = true ∧ after.HasCurrent ∧ after.tree.FileAt location := by
  obtain ⟨made, hmake, hlocate, hopened⟩ := exists_of_openLog hcurrent h
  have hgrows := makeDirectories_grows hcurrent path.parent
  have habove : ∀ part ∈ path.parent.parts, Path.isPlainPart part = true := fun part hpart =>
    hplain part (List.dropLast_subset path.parts hpart)
  have hmade := isProper_makeDirectories hproper hcurrent habove
  rw [hmake] at hgrows hmade
  have hthere := hgrows.keeps.hasCurrent hcurrent
  rcases hopened with ⟨rfl, hfile⟩ | ⟨rfl, hvacant, hshows⟩
  · exact ⟨hmade, hthere, hfile⟩
  · have hnames : ∀ part ∈ location, isEntryName part = true := by
      refine isEntryName_of_locate hmade hthere (fun part hpart => ?_) hlocate
      rcases Path.mem_walkUpAndDown hpart with hstart | ⟨hmem, -⟩
      · split at hstart
        · rw [← hgrows.current] at hstart
          exact isPlainPart_of_isEntryName (Tree.isEntryName_of_sight hmade hthere part hstart)
        · exact absurd hstart List.not_mem_nil
      · exact hplain part hmem
    exact ⟨Tree.isProper_putAt hnames rfl hmade, (hshows.keeps (by rw [hvacant]; simp)).hasCurrent hthere,
      .empty, made.newFileMode, hshows.here⟩

/-- A journal is set up without a log file, or with one that could be opened. It has the handlers of that then, and
none of those that it had before. -/
theorem configure_cases {opened : Session} {verbose : Bool} {logFile : Option Path}
    (h : session.configure verbose logFile = (opened, none)) :
    ∃ disk file, opened = ⟨disk, { session.journal with
        level := if verbose then .debug else .info
        handlers := Journal.handlersFor (if verbose then .debug else .info) file }⟩ ∧
      (logFile = none ∧ disk = session.disk ∧ file = none ∨
        ∃ path location, logFile = some path ∧ openLog session.disk path = (disk, .ok location) ∧
          file = some location) := by
  simp only [configure, Journal.removeHandlers_eq] at h
  cases logFile with
  | none =>
    obtain rfl := (Prod.mk.inj h).1
    exact ⟨session.disk, none, rfl, .inl ⟨rfl, rfl, rfl⟩⟩
  | some path =>
    simp only at h
    rcases hopen : openLog session.disk path with ⟨disk, error | location⟩
    · simp only [hopen] at h
      exact absurd (Prod.mk.inj h).2 (by simp)
    · simp only [hopen] at h
      obtain rfl := (Prod.mk.inj h).1
      exact ⟨disk, _, rfl, .inr ⟨path, location, rfl, hopen, rfl⟩⟩

/-- A journal that is set up writes to a log file that is there, or to none. -/
theorem configure_spec {opened : Session} {verbose : Bool} {logFile : Option Path}
    (hproper : session.disk.tree.isProper = true) (hcurrent : session.disk.HasCurrent)
    (hplain : ∀ path, logFile = some path → ∀ part ∈ path.parts, Path.isPlainPart part = true)
    (h : session.configure verbose logFile = (opened, none)) :
    opened.disk.tree.isProper = true ∧ opened.disk.HasCurrent ∧ opened.IsLogging := by
  have hlevel : (if verbose then Level.debug else Level.info).rank ≤ Level.info.rank := by
    cases verbose <;> decide
  have hset : (if verbose then Level.debug else Level.info) ≠ .notSet := by
    cases verbose <;> decide
  obtain ⟨disk, file, rfl, ⟨rfl, rfl, rfl⟩ | ⟨path, location, rfl, hopen, rfl⟩⟩ := configure_cases h
  · refine ⟨hproper, hcurrent, fun hnone => absurd rfl hnone, fun handler hhandler location hlocation => ?_⟩
    obtain rfl := List.mem_singleton.1 hhandler
    exact absurd hlocation (by simp [Handler.location?])
  · obtain ⟨hafter, hthere, hfile⟩ := openLog_spec hproper hcurrent (hplain path rfl) hopen
    refine ⟨hafter, hthere, fun _ => ?_, fun handler hhandler place hplace => ?_⟩
    · rw [Journal.threshold, if_neg hset]
      exact hlevel
    · rcases List.mem_cons.1 hhandler with rfl | hhandler
      · exact absurd hplace (by simp [Handler.location?])
      · obtain rfl := List.mem_singleton.1 hhandler
        obtain rfl : location = place := Option.some.inj hplace
        exact ⟨hfile, hlevel⟩

end Session

end FfiBindings
