import FfiBindings.CommandLine.Help
import FfiBindings.CommandLine.Listing
import FfiBindings.Generation.Run

/-!
The program: a command line is carried out on a disk. What it says goes to the standard output and, with the
journal, to the console; it ends with an exit status or fails with an error that it does not handle. Where the
medium fails and how the steps of workers interleave can be given; by default nothing fails.
-/

set_option autoImplicit false
set_option relaxedAutoImplicit false

namespace FfiBindings.CommandLine

/-- Errors that the program does not handle. -/
inductive Failure where
  | file (error : FileError)
  | run (error : Generation.RunError)
  deriving DecidableEq, Repr

def Failure.message : Failure → String
  | .file error => error.message
  | .run error => error.message

/-- What the program has printed, and how it ended. -/
structure Ending where
  output : String
  result : Except Failure Nat

namespace Ending

def exit (status : Nat) (output : String) : Ending := ⟨output, .ok status⟩

def fail (failure : Failure) : Ending := ⟨"", .error failure⟩

end Ending

/-- Says something on the console, outside of the journal. -/
def complain (session : Session) (text : String) : Session :=
  { session with journal :=
    { session.journal with console := session.journal.console ++ text } }

/-- Ends with a complaint. -/
def refuse (session : Session) (status : Nat) (text : String) (output : String) : Session × Ending :=
  (complain session text, .exit status output)

def isMissing : FileError → Bool
  | .refused .notFound _ => true
  | .refused .notADirectory _ => true
  | _ => false

/-- What the console is told of an error that ends a run, where it is one to expect. -/
def runComplaint? (error : Generation.RunError) : Option String :=
  match error with
  | .scan (.notFound _) => some error.message
  | .scan (.notADirectory _) => some error.message
  | .config (.invalid invalid) => some s!"Invalid configuration: {invalid.message}"
  | .config (.document .malformed) => some s!"Invalid configuration: {error.message}"
  | .config (.file file) => if isMissing file then some error.message else none
  | .template (.file file) => if isMissing file then some error.message else none
  | _ => none

def generateComplaint? (report : Report) (strict : Bool) : Option String :=
  match report.status with
  | .failed => some "bunbind generate failed. Run with --verbose for more details.\n"
  | .partly => if strict then some "Some modules were skipped (--strict).\n" else none
  | .success => none

/-- What a command line asks of a run. -/
def requestOf (path : String) (arguments : Arguments) : Generation.Request where
  path := .ofText path
  platform := arguments.platform
  workers := arguments.workers
  dryRun := arguments.dryRun

def generate (session : Session) (path : String) (arguments : Arguments)
    (circumstances : Generation.Circumstances := {}) : Session × Ending :=
  match Generation.generate session (requestOf path arguments) circumstances with
  | (session, .error error) =>
    match runComplaint? error with
    | some complaint => refuse session 1 (complaint ++ "\n") ""
    | none => (session, .fail (.run error))
  | (session, .ok report) =>
    let output := report.summary ++ "\n"
    match generateComplaint? report arguments.strict with
    | some complaint => refuse session 1 complaint output
    | none => (session, .exit 0 output)

/-- What is listed of a file with the functions. -/
def listing (path : Path) (json : Bool) (functions : List Rust.ExportedFunction) : String :=
  if json then Listing.json functions
  else if functions.isEmpty then s!"No exported functions found in {path.toText}\n"
  else Listing.lines functions

def inspect (session : Session) (path : Path) (json : Bool) : Session × Ending :=
  match Language.choose? Language.all path with
  | none =>
    let suffix := if path.suffix.isEmpty then path.name else path.suffix
    refuse session 1 s!"No extractor supports {Text.quoted suffix} files\n" ""
  | some language =>
    match session.disk.read path with
    | .error .nullInPath => (session, .fail (.file .nullInPath))
    | .error error => refuse session 1 s!"Cannot read {path.toText}: {error.message}\n" ""
    | .ok bytes =>
      match Text.Utf8.decode bytes with
      | .error fault => refuse session 1 s!"Cannot read {path.toText}: {fault.message}\n" ""
      | .ok text =>
        let survey := language.survey (Text.withUnifiedNewlines text)
        let session := session.noteAll (survey.findings.filterMap Generation.Task.skipMessage)
        match survey.functions with
        | .error error => refuse session 1 s!"{path.toText}: {error.message}\n" ""
        | .ok functions => (session, .exit 0 (listing path json functions))

/-- Carries out a command, with the journal set up for it. -/
def carryOut (session : Session) (invocation : Invocation)
    (circumstances : Generation.Circumstances := {}) : Session × Ending :=
  let arguments := invocation.arguments
  match session.configure arguments.verbose (arguments.logFile.map Path.ofText) with
  | (session, some error) => (session, .fail (.file error))
  | (session, none) =>
    match invocation.command with
    | .generate => generate session invocation.operand arguments circumstances
    | .inspect => inspect session (.ofText invocation.operand) arguments.json

/-- Carries out a command line. -/
def run (session : Session) (words : List String) (circumstances : Generation.Circumstances := {}) :
    Session × Ending :=
  match Invocation.ofWords words with
  | .error (.help scope) => (session, .exit 0 scope.help)
  | .error (.usage scope error) => refuse session 2 (scope.errorText error) ""
  | .ok invocation => carryOut session invocation circumstances

end FfiBindings.CommandLine
