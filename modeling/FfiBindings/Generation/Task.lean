import FfiBindings.Binding.TemplateFile
import FfiBindings.Config.Load
import FfiBindings.Index.Update
import FfiBindings.Report
import FfiBindings.Source.Language
import FfiBindings.Source.Scan

/-!
Making the binding of one source module, in three steps: the directory of the binding is made, the
source and the template are read and the binding is laid out, and the binding is written. A step that ends
the work on the module gives its outcome; `Task.advance` takes one step and `Task.finish` all that are left.
A dry run reads sources and writes nothing.
-/

set_option autoImplicit false
set_option relaxedAutoImplicit false

namespace FfiBindings.Generation

/-- Why a run ends without a report. -/
inductive RunError where
  | config (error : Config.LoadError)
  | scan (error : ScanError)
  | template (fault : Template.Fault)
  | file (error : FileError)
  | index (fault : Text.Utf8.Fault)
  deriving DecidableEq, Repr

def RunError.message : RunError → String
  | .config error => error.message
  | .scan error => error.message
  | .template fault => fault.message
  | .file error => error.message
  | .index fault => fault.message

/-- Where the medium fails. -/
structure Faults where
  /-- Failures to make the directory of a binding, with how many of the innermost directories are not
  even tried. -/
  directory : SourceModule → Option (FileError × Nat) := fun _ => none
  read : SourceModule → Option FileError := fun _ => none
  /-- Failures to write a binding, with what they leave in its place. -/
  write : SourceModule → Option (FileError × Option ByteArray) := fun _ => none
  index : Index.Faults := Index.Faults.none

/-- How a run ends for one module. -/
inductive Outcome where
  | bound (entry : IndexEntry) (written : Path)
  | noted (diagnostic : Diagnostic)
  /-- The platform has no bindings at all, which ends the run. -/
  | unsupported (error : Platform.Unsupported)
  | stopped (error : RunError)
  deriving DecidableEq, Repr

/-- The text of a binding and the names it exports. -/
structure Layout where
  content : String
  names : List String
  /-- Whether the text has halves of characters, for which `content` has replacement characters. -/
  isHalved : Bool := false
  deriving DecidableEq, Repr

namespace Layout

/-- The bytes of the text. Half a character has none, so a text with one is not begun. -/
def bytes (layout : Layout) : ByteArray :=
  if layout.isHalved then .empty else layout.content.toUTF8

/-- What is told of a text without an encoding. -/
def noEncoding : FileError := .failed "surrogates not allowed"

end Layout

/-- What the work on all modules of a run has in common. -/
structure Task where
  config : Config
  languages : List Language
  plan : Plan
  dryRun : Bool
  faults : Faults

/-- How far the work on a module has come. -/
inductive Stage where
  | waiting
  | prepared (language : Language)
  | laidOut (layout : Layout)
  | finished (outcome : Outcome)
  deriving DecidableEq, Repr

namespace Stage

def isWaiting : Stage → Bool
  | .waiting => true
  | _ => false

end Stage

/-- A path as reports show it: below the library root where it lies there. -/
def displayed (path root : Path) : String :=
  match path.relativeTo root with
  | .ok relative => relative.toText
  | .error _ => path.toText

/-- Where the work on modules comes from in the journal. -/
def journalName : String := "orchestrator"

namespace Task

variable (task : Task) (source : SourceModule)

def target : Path :=
  source.bindingPath task.config.outputRoot

def note (severity : Severity) (message : String) : Outcome :=
  .noted ⟨severity, displayed source.path task.config.root, message⟩

/-- The outcome of a step that the files refuse. A path that no disk can have ends the run. -/
def refused (attempt : String) (error : FileError) : Outcome :=
  match error with
  | .nullInPath => .stopped (.file .nullInPath)
  | error => task.note source .error s!"{attempt}: {error.message}"

/-- Makes the directory of the binding, or some of those above it before the medium fails. -/
def makeDirectory (disk : Disk) : Disk × Option FileError :=
  let directory := (task.target source).parent
  match task.faults.directory source with
  | none => disk.makeDirectories directory
  | some (error, untried) =>
    let tried := directory.parts.take (directory.parts.length - untried)
    match disk.makeDirectories ⟨directory.anchor, tried⟩ with
    | (disk, some error) => (disk, some error)
    | (disk, none) => (disk, some error)

def prepare (session : Session) : Session × Except Outcome Language :=
  match Language.choose? task.languages source.path with
  | none =>
    (session, .error (task.note source .warning "no extractor supports this file type"))
  | some language =>
    if task.dryRun then (session, .ok language)
    else
      match task.makeDirectory source session.disk with
      | (disk, none) => ({ session with disk }, .ok language)
      | (disk, some error) =>
        let directory := (task.target source).parent
        ({ session with disk },
          .error (task.refused source s!"cannot create {directory.toText}" error))

def readSource (disk : Disk) : Except FileError ByteArray :=
  match task.faults.read source with
  | some error => .error error
  | none => disk.read source.path

/-- The journal's word on a function that is passed over. -/
def skipMessage : Rust.Finding → Option Message
  | .genericSkipped name line =>
    some ⟨.debug, "extractors.rust", s!"Skipping generic exported fn {name} (line {line})"⟩
  | _ => none

/-- The template as it is on the disk. -/
def template (disk : Disk) : Except Template.Fault Template :=
  Template.load disk task.config.templatesDirectory

/-- Whether the text of a binding has the halves of characters that the directory of the libraries has: they are
there if the directory is, so that another one gives another text. -/
def showsHalves (template : Template) (binding : Binding) : Bool :=
  task.config.binDirectoryHalved &&
    (template.render { binding with binDir := binding.binDir ++ "/" }).toOption !=
      (template.render binding).toOption

/-- The layout of a binding of the functions, with the template that is on the disk. -/
def layOut (disk : Disk) (functions : List Rust.ExportedFunction) : Except Outcome Layout :=
  match task.plan.bind source.baseName functions with
  | .error error => .error (.unsupported error)
  | .ok binding =>
    match task.template disk with
    | .error fault => .error (.stopped (.template fault))
    | .ok template =>
      match template.render binding with
      | .error error => .error (.stopped (.template (.undefined error)))
      | .ok content =>
        .ok { content, names := functions.map (·.name), isHalved := task.showsHalves template binding }

/-- The functions in the bytes of a source, and what the journal says about it. -/
def extract (language : Language) (bytes : ByteArray) :
    List Message × Except Outcome (List Rust.ExportedFunction) :=
  match Text.Utf8.decode bytes with
  | .error fault => ([], .error (task.note source .error s!"cannot read source: {fault.message}"))
  | .ok text =>
    let survey := language.survey (Text.withUnifiedNewlines text)
    (survey.findings.filterMap skipMessage,
      match survey.functions with
      | .error error =>
        .error (task.note source .error s!"parse failure: {error.message}")
      | .ok [] => .error (task.note source .warning "no exported functions found")
      | .ok functions => .ok functions)

/-- Reads the source, and then the template for its functions. -/
def read (language : Language) (session : Session) : Session × Except Outcome Layout :=
  match task.readSource source session.disk with
  | .error error => (session, .error (task.refused source "cannot read source" error))
  | .ok bytes =>
    let (messages, functions) := task.extract source language bytes
    let session := session.noteAll messages
    (session, functions.bind (task.layOut source session.disk))

/-- Where the medium fails to write a binding. A text without an encoding is given up before anything of it is
written. -/
def writeFault (layout : Layout) : Option (FileError × Option ByteArray) :=
  (task.faults.write source).filter fun fault => !(layout.isHalved && fault.2.isSome)

/-- Writes the text, or what the medium leaves of it. -/
def writeContent (layout : Layout) (disk : Disk) : Disk × Option FileError :=
  let write (content : ByteArray) : Disk × Option FileError :=
    match disk.write (task.target source) content with
    | .ok disk => (disk, none)
    | .error error => (disk, some error)
  match task.writeFault source layout with
  | none => write layout.bytes
  | some (error, none) => (disk, some error)
  | some (error, some left) => ((write left).1, some error)

def entry (layout : Layout) : IndexEntry :=
  ⟨source.importPath task.config.outputDirectory, layout.names⟩

def write (layout : Layout) (session : Session) : Session × Outcome :=
  let target := task.target source
  let bound : Outcome := .bound (task.entry source layout) target
  if task.dryRun then (session, bound)
  else
    match task.writeContent source layout session.disk with
    | (disk, some error) =>
      ({ session with disk }, task.refused source s!"cannot write {target.toText}" error)
    | (disk, none) =>
      if layout.isHalved then ({ session with disk }, .stopped (.file Layout.noEncoding))
      else
        let message := s!"Wrote {target.toText} ({layout.names.length} functions)"
        (Session.note { session with disk } ⟨.debug, journalName, message⟩, bound)

/-- Takes the next step. -/
def advance (session : Session) : Stage → Session × Stage
  | .waiting =>
    match task.prepare source session with
    | (session, .error outcome) => (session, .finished outcome)
    | (session, .ok language) => (session, .prepared language)
  | .prepared language =>
    match task.read source language session with
    | (session, .error outcome) => (session, .finished outcome)
    | (session, .ok layout) => (session, .laidOut layout)
  | .laidOut layout =>
    match task.write source layout session with
    | (session, outcome) => (session, .finished outcome)
  | .finished outcome => (session, .finished outcome)

/-- Takes all steps, one after the other. -/
def finish (session : Session) : Session × Outcome :=
  match task.prepare source session with
  | (session, .error outcome) => (session, outcome)
  | (session, .ok language) =>
    match task.read source language session with
    | (session, .error outcome) => (session, outcome)
    | (session, .ok layout) => task.write source layout session

/-- Three steps finish the work on a module. -/
theorem advance_advance_advance (session : Session) :
    (let (session, stage) := task.advance source session .waiting
     let (session, stage) := task.advance source session stage
     task.advance source session stage) =
      ((task.finish source session).1, .finished (task.finish source session).2) := by
  simp only [advance, finish]
  rcases task.prepare source session with ⟨prepared, outcome | language⟩
  · rfl
  · simp only
    rcases task.read source language prepared with ⟨read, outcome | layout⟩ <;> rfl

end Task

end FfiBindings.Generation
