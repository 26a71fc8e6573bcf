import FfiBindings.Config.Settings
import FfiBindings.Text.Line
import FfiBindings.Text.Utf8
import FfiBindings.Tree.Disk

/-!
Loading the settings of a library. They stand in a file at the library root; a path that is no directory
stands for the directory it is in. A library without the file has the default settings.
-/

set_option autoImplicit false
set_option relaxedAutoImplicit false

namespace FfiBindings.Config

inductive LoadError where
  | file (error : FileError)
  | encoding (fault : Text.Utf8.Fault)
  | document (fault : Yaml.Fault)
  | invalid (error : Invalid)
  deriving DecidableEq, Repr

def LoadError.message : LoadError → String
  | .file error => error.message
  | .encoding fault => fault.message
  | .document .malformed => s!"Failed to parse {fileName}"
  | .document fault => fault.message
  | .invalid error => error.message

/-- The settings file that a path stands for. -/
def filePath (disk : Disk) (path : Path) : Path :=
  if disk.isDirectory path then path.child fileName
  else if path.name = fileName then path
  else path.parent.child fileName

/-- The settings in the text of a settings file. -/
def ofText (root : Path) (text : String) : Except LoadError Config :=
  let text := Text.withUnifiedNewlines text
  if Text.allBlank text then .ok { root }
  else
    match Yaml.Document.ofText text with
    | .error fault => .error (.document fault)
    | .ok document => (ofDocument root document).mapError .invalid

def load (disk : Disk) (path : Path) : Except LoadError Config :=
  let spelled := filePath disk path
  let file := spelled.absolute disk.current
  let root := file.parent
  if Disk.hasNull spelled then .error (.file .nullInPath)
  else if disk.contains file then
    match disk.read file with
    | .error error => .error (.file error)
    | .ok bytes =>
      match Text.Utf8.decode bytes with
      | .error fault => .error (.encoding fault)
      | .ok text => ofText root text
  else .ok { root }

end FfiBindings.Config
