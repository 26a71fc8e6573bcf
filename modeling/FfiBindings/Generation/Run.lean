import FfiBindings.Generation.Pool

/-!
A generation run: the settings are loaded, the sources are found, each gets its binding, and the index
takes up the import paths of all bindings at once. A run that stops on an error has no report; one that
is aborted has one.
-/

set_option autoImplicit false
set_option relaxedAutoImplicit false

namespace FfiBindings.Generation

/-- What a run is asked for; the settings of the library fill in what is left open. -/
structure Request where
  path : Path
  platform : Option String := none
  workers : Option Int := none
  dryRun : Bool := false
  deriving DecidableEq, Repr

/-- What a run cannot choose: where the medium fails, and how the steps of workers interleave. -/
structure Circumstances where
  faults : Faults := {}
  events : List Event := []

/-- The platform that bindings are for; an empty request is none. -/
def platformOf (request : Request) (config : Config) : Option String :=
  match request.platform.filter (!·.isEmpty) with
  | some platform => some platform
  | none => config.platform

def planOf (request : Request) (config : Config) : Plan where
  platform := platformOf request config
  types := TypeTable.standard.insertAll config.typeAliases
  binDir := config.binDirectory

def taskOf (request : Request) (config : Config) (faults : Faults) : Task where
  config
  languages := Language.all
  plan := planOf request config
  dryRun := request.dryRun
  faults

/-- The sources of a library with these settings. -/
def selectionOf (config : Config) : Selection :=
  .of (Language.all.flatMap Language.suffixes) config.excludedPaths

/-- What the journal says about an update of the index that has been carried out. -/
def indexMessage (path : Path) (update : Index.Update) (dryRun : Bool) : Option Message :=
  let source := "aggregator"
  if !update.changed then some ⟨.debug, source, s!"{path.toText} already up to date"⟩
  else if dryRun then none
  else some ⟨.info, source, s!"Updated {path.toText} ({update.added.length} new lines)"⟩

/-- An updated index is another file, which no journal is written to. -/
def withIndex (path : Path) (update : Index.Update) (dryRun : Bool) (session : Session) :
    Session :=
  if update.changed && !dryRun then
    match session.disk.locate path with
    | .ok location => session.replacedAt location
    | .error _ => session
  else session

/-- Merges the import paths of the report into the index. -/
def mergeIndex (faults : Index.Faults) (session : Session) (report : Report) :
    Session × Except RunError Report :=
  let importPaths := report.entries.map IndexEntry.importPath
  match Index.update session.disk report.indexPath importPaths report.dryRun faults with
  | (disk, .ok update) =>
    let session := withIndex report.indexPath update report.dryRun { session with disk }
    (session.noteAll (indexMessage report.indexPath update report.dryRun).toList,
      .ok { report with indexChanged := update.changed })
  | (disk, .error (.encoding fault)) => ({ session with disk }, .error (.index fault))
  | (disk, .error (.file .nullInPath)) =>
    ({ session with disk }, .error (.file .nullInPath))
  | (disk, .error (.file error)) =>
    let diagnostic : Diagnostic :=
      ⟨.error, report.indexPath.toText, s!"cannot update index: {error.message}"⟩
    (Session.note { session with disk } (diagnostic.logMessage journalName),
      .ok { report with diagnostics := report.diagnostics ++ [diagnostic], aborted := true })

def endMessage (report : Report) : Message :=
  ⟨.info, journalName, s!"Generation {report.status.name}: {report.entries.length} bindings, " ++
    s!"{report.warnings.length} warnings, {report.errors.length} errors"⟩

/-- Works on the modules and then on the index. -/
def generateModules (task : Task) (workers : Int) (events : List Event)
    (sources : List SourceModule) (session : Session) : Session × Except RunError Report :=
  let report : Report :=
    { root := task.config.root, indexPath := task.config.indexPath, dryRun := task.dryRun }
  match task.work workers events sources session report with
  | (session, .error (.stopped error)) => (session, .error error)
  | (session, .error (.aborted report)) => (session, .ok report)
  | (session, .ok report) =>
    match mergeIndex task.faults.index session report with
    | (session, .error error) => (session, .error error)
    | (session, .ok report) => (session.note (endMessage report), .ok report)

/-- One run. -/
def generate (session : Session) (request : Request) (circumstances : Circumstances) :
    Session × Except RunError Report :=
  if Disk.hasNull request.path then (session, .error (.file .nullInPath))
  else
    let root := request.path.absolute session.disk.current
    match Config.load session.disk root with
    | .error error => (session, .error (.config error))
    | .ok config =>
      let session :=
        session.note ⟨.info, journalName, s!"Starting generation run for {root.toText}"⟩
      match scan session.disk (selectionOf config) root config.sourceDirectory with
      | .error error => (session, .error (.scan error))
      | .ok sources =>
        let session :=
          session.note ⟨.debug, journalName, s!"Discovered {sources.length} source modules"⟩
        let task := taskOf request config circumstances.faults
        generateModules task (request.workers.getD config.workers) circumstances.events sources
          session

end FfiBindings.Generation
