import FfiBindings.Tree.Disk

/-!
The journal of what a program does. Its handlers write messages to the console and, where one was asked for,
to the end of a log file; setting the journal up again removes the handlers that it has before it adds new ones,
so no message appears twice. Before it is set up for the first time only warnings and errors are shown, and as
they are.
-/

set_option autoImplicit false
set_option relaxedAutoImplicit false

namespace FfiBindings

/-- How much a message matters, as a number; a few of them have names. -/
structure Level where
  rank : Int
  deriving DecidableEq, Repr

namespace Level

/-- The level of a log that none is set for. -/
def notSet : Level := ⟨0⟩

def debug : Level := ⟨10⟩

def info : Level := ⟨20⟩

def warning : Level := ⟨30⟩

def error : Level := ⟨40⟩

def critical : Level := ⟨50⟩

def names : List (Level × String) :=
  [(debug, "DEBUG"), (info, "INFO"), (warning, "WARNING"), (error, "ERROR"), (critical, "CRITICAL"),
    (notSet, "NOTSET")]

def name (level : Level) : String :=
  (names.lookup level).getD s!"Level {level.rank}"

end Level

/-- A message, and the part of the program that has it, empty for the program itself. -/
structure Message where
  level : Level
  source : String
  text : String
  deriving DecidableEq, Repr

/-- The full name of a part of the program. -/
def Message.sourceName (message : Message) : String :=
  if message.source.isEmpty then "bunbind" else "bunbind." ++ message.source

/-- Where a handler writes. -/
inductive Outlet where
  | console
  /-- A log file; it is lost sight of when another file takes its place. -/
  | file (location : Location) (isThere : Bool)
  deriving DecidableEq, Repr

/-- A handler writes the messages from its level on. -/
structure Handler where
  level : Level
  outlet : Outlet
  deriving DecidableEq, Repr

structure Journal where
  /-- The date and time that log files show. -/
  clock : String := ""
  level : Level := .notSet
  handlers : List Handler := []
  /-- All that has gone to the console. -/
  console : String := ""

/-- A disk and the journal of what is done on it. -/
structure Session where
  disk : Disk
  journal : Journal := {}

namespace Journal

def handlerCount (journal : Journal) : Nat :=
  journal.handlers.length

def levelName (journal : Journal) : String :=
  journal.level.name

/-- The level from which on messages are let through. -/
def threshold (journal : Journal) : Level :=
  if journal.level = .notSet then .warning else journal.level

def addHandler (journal : Journal) (handler : Handler) : Journal :=
  { journal with handlers := journal.handlers ++ [handler] }

def removeHandler (journal : Journal) (handler : Handler) : Journal :=
  { journal with handlers := journal.handlers.erase handler }

/-- Removes all handlers, one after the other. -/
def removeHandlers (journal : Journal) : Journal :=
  journal.handlers.foldl removeHandler journal

def consoleLine (message : Message) : String :=
  s!"[bunbind] {message.level.name} {message.text}\n"

def fileLine (clock : String) (message : Message) : String :=
  s!"{clock} {message.level.name} {message.sourceName}: {message.text}\n"

end Journal

namespace Session

/-- Appends to a file that is there. -/
def append (disk : Disk) (location : Location) (text : String) : Disk :=
  match disk.tree.find? location with
  | some (.file content mode) => disk.putAt location (.file (content ++ text.toUTF8) mode)
  | _ => disk

def print (session : Session) (text : String) : Session :=
  { session with journal := { session.journal with console := session.journal.console ++ text } }

/-- Hands a message to a handler. -/
def hand (message : Message) (session : Session) (handler : Handler) : Session :=
  if handler.level.rank ≤ message.level.rank then
    match handler.outlet with
    | .console => session.print (Journal.consoleLine message)
    | .file location true =>
      let line := Journal.fileLine session.journal.clock message
      { session with disk := append session.disk location line }
    | .file _ false => session
  else session

/-- Hands a message that is let through to all handlers. If there is none, it is shown as it is, from warnings on. -/
def note (session : Session) (message : Message) : Session :=
  if session.journal.threshold.rank ≤ message.level.rank then
    match session.journal.handlers with
    | [] =>
      if Level.warning.rank ≤ message.level.rank then session.print (message.text ++ "\n") else session
    | handlers => handlers.foldl (hand message) session
  else session

def noteAll (session : Session) (messages : List Message) : Session :=
  messages.foldl note session

/-- Another file has come to the location: a log file that was there is no longer written to. -/
def replacedAt (session : Session) (location : Location) : Session :=
  let replaced (handler : Handler) : Handler :=
    match handler.outlet with
    | .console => handler
    | .file place isThere => { handler with outlet := .file place (isThere && place != location) }
  { session with journal := { session.journal with handlers := session.journal.handlers.map replaced } }

/-- Opens a log file, with the directories above it, to append to it. -/
def openLog (disk : Disk) (path : Path) : Disk × Except FileError Location :=
  match disk.makeDirectories path.parent with
  | (disk, some error) => (disk, .error error)
  | (disk, none) =>
    let path := path.absolute disk.current
    match disk.locate path with
    | .error error => (disk, .error error)
    | .ok location =>
      match disk.tree.find? location with
      | some (.file _ _) => (disk, .ok location)
      | some (.directory _) => (disk, .error (.refused .isADirectory path))
      | none => (disk.putAt location (.file .empty disk.newFileMode), .ok location)

/-- Sets the journal up anew. The console is open before the log file is. -/
def configure (session : Session) (verbose : Bool) (logFile : Option Path) :
    Session × Option FileError :=
  let level := if verbose then Level.debug else Level.info
  let journal := { session.journal with level }.removeHandlers.addHandler ⟨level, .console⟩
  match logFile with
  | none => ({ session with journal }, none)
  | some path =>
    match openLog session.disk path with
    | (disk, .error error) => (⟨disk, journal⟩, some error)
    | (disk, .ok location) => (⟨disk, journal.addHandler ⟨level, .file location true⟩⟩, none)

end Session

end FfiBindings
