import FfiBindings.Journal

/-!
The report of a generation run: what was bound and written, what went wrong, and how it ended.
-/

set_option autoImplicit false
set_option relaxedAutoImplicit false

namespace FfiBindings

/-- How bad a finding is; a note counts neither as a warning nor as an error. -/
inductive Severity where
  | note
  | warning
  | error
  deriving DecidableEq, Repr

def Severity.name : Severity → String
  | .note => "note"
  | .warning => "warning"
  | .error => "error"

/-- The severity of that name; other names are notes. -/
def Severity.ofName (text : String) : Severity :=
  if text = Severity.warning.name then .warning
  else if text = Severity.error.name then .error
  else .note

structure Diagnostic where
  severity : Severity
  path : String
  message : String
  deriving DecidableEq, Repr

/-- How a diagnostic reads in the journal of the given part of the program. -/
def Diagnostic.logMessage (source : String) (diagnostic : Diagnostic) : Message where
  level := match diagnostic.severity with
    | .note => .info
    | .warning => .warning
    | .error => .error
  source := source
  text := s!"{diagnostic.path}: {diagnostic.message}"

/-- A binding as the index sees it, with the names it exports. -/
structure IndexEntry where
  importPath : String
  names : List String
  deriving DecidableEq, Repr

inductive Status where
  | success
  | partly
  | failed
  deriving DecidableEq, Repr

def Status.name : Status → String
  | .success => "success"
  | .partly => "partial"
  | .failed => "failed"

structure Report where
  /-- The root of the library. -/
  root : Path
  indexPath : Path
  entries : List IndexEntry := []
  diagnostics : List Diagnostic := []
  written : List Path := []
  indexChanged : Bool := false
  aborted : Bool := false
  dryRun : Bool := false
  deriving DecidableEq, Repr

namespace Report

/-- The names that each import path exports; a path that comes again keeps its place and takes the
later names. -/
def exports (report : Report) : List (String × List String) :=
  report.entries.foldl (fun exports entry =>
    if exports.any (·.1 == entry.importPath) then
      exports.map fun (path, names) =>
        if path = entry.importPath then (path, entry.names) else (path, names)
    else exports ++ [(entry.importPath, entry.names)]) []

def warnings (report : Report) : List Diagnostic :=
  report.diagnostics.filter (·.severity == .warning)

def errors (report : Report) : List Diagnostic :=
  report.diagnostics.filter (·.severity == .error)

/-- An aborted run has failed; one with errors has succeeded in part. -/
def status (report : Report) : Status :=
  if report.aborted then .failed
  else if report.errors.isEmpty then .success
  else .partly

def indexState (report : Report) : String :=
  if report.aborted then "not updated"
  else if report.indexChanged then "updated"
  else "unchanged"

/-- The report in one line. -/
def summary (report : Report) : String :=
  let verb := if report.dryRun then "Would write" else "Wrote"
  s!"{verb} {report.written.length} binding(s); index {report.indexState}; " ++
    s!"{report.warnings.length} warning(s), {report.errors.length} error(s) [{report.status.name}]"

end Report

end FfiBindings
