import FfiBindings.Index.Merge
import FfiBindings.Text.Utf8
import FfiBindings.Tree.Disk

/-!
Updating an index file in one stroke. The merged text is written to a temporary file beside the index,
which then takes the place of the index; when any of these steps fails the temporary file is removed
and the index is what it was. Directories that were made on the way to the index stay.
-/

set_option autoImplicit false
set_option relaxedAutoImplicit false

namespace FfiBindings.Index

inductive UpdateError where
  | file (error : FileError)
  | encoding (fault : Text.Utf8.Fault)
  deriving DecidableEq, Repr

/-- What an update comes to, whether or not it is carried out. -/
structure Update where
  content : String
  added : List String
  changed : Bool
  deriving DecidableEq, Repr

def Update.of (prior : String) (importPaths : List String) : Update where
  content := merge prior importPaths
  added := newLines prior importPaths
  changed := merge prior importPaths != prior

/-- The steps of an update at which the medium may fail. -/
inductive Step where
  | read
  | directory
  /-- Making the temporary file. -/
  | temporary
  | content
  | permissions
  | rename
  deriving DecidableEq, Repr

/-- Which of the steps fail, and how. -/
abbrev Faults := Step → Option FileError

/-- A medium without faults. -/
def Faults.none : Faults := fun _ => .none

/-- A name for a temporary file that is not among the given ones. -/
def temporaryName (name : String) (taken : List String) : String :=
  let candidate (n : Nat) := s!".{name}.{n}.tmp"
  candidate (((List.range (taken.length + 1)).find? fun n => !taken.contains (candidate n)).getD 0)

def namesIn (disk : Disk) (directory : Path) : List String :=
  match disk.find? directory with
  | some (.directory tree) => tree.names
  | _ => []

/-- Permission bits of a temporary file. -/
def privateMode : Nat := 0o600

/-- The permission bits of the file that is replaced, or those of a new one. -/
def modeFor (disk : Disk) (path : Path) : Nat :=
  match disk.find? path with
  | some (.file _ mode) => mode
  | _ => disk.newFileMode

/-- Makes the directories above a path. -/
def prepare (disk : Disk) (path : Path) (faults : Faults) : Disk × Option FileError :=
  match faults .directory with
  | some error => (disk, some error)
  | none => disk.makeDirectories path.parent

/-- Why a file does not take the place of a directory. -/
def directoryInPlace (temporary path : Path) : FileError :=
  let cause := if path.name = ".." then "[Errno 16] Device or resource busy"
    else "[Errno 21] Is a directory"
  .failed s!"{cause}: {Text.quoted temporary.toText} -> {Text.quoted path.toText}"

/-- Puts a file with the content at the location, by way of a temporary file beside it; something may be
in the way of the last step. -/
def replaceAt (disk : Disk) (beside location : Location) (mode : Nat) (content : ByteArray)
    (obstacle : Option FileError) (faults : Faults) : Disk × Option FileError :=
  let remove (disk : Disk) : Disk := { disk with tree := disk.tree.eraseAt beside }
  match faults .temporary with
  | some error => (disk, some error)
  | none =>
    let created := disk.putAt beside (.file .empty privateMode)
    match faults .content with
    | some error => (remove created, some error)
    | none =>
      let written := created.putAt beside (.file content privateMode)
      match faults .permissions with
      | some error => (remove written, some error)
      | none =>
        let permitted := written.putAt beside (.file content mode)
        match (faults .rename).or obstacle with
        | some error => (remove permitted, some error)
        | none => ((remove permitted).putAt location (.file content mode), none)

/-- Puts a file with the content in the place of the one at the path. -/
def replaceFile (disk : Disk) (path : Path) (content : ByteArray) (faults : Faults) :
    Disk × Option FileError :=
  match prepare disk path faults with
  | (disk, some error) => (disk, some error)
  | (disk, none) =>
    let temporary := path.parent.child (temporaryName path.name (namesIn disk path.parent))
    match disk.locate temporary, disk.locate path with
    | .error error, _ => (disk, some error)
    | _, .error error => (disk, some error)
    | .ok beside, .ok location =>
      let obstacle := if disk.tree.isDirectoryAt location then some (directoryInPlace temporary path)
        else none
      replaceAt disk beside location (modeFor disk path) content obstacle faults

/-- The text of the index, empty where there is no file. -/
def readText (disk : Disk) (path : Path) (faults : Faults) : Except UpdateError String :=
  match faults .read with
  | some error => .error (.file error)
  | none =>
    match disk.read path with
    | .ok bytes => (Text.Utf8.decode bytes).mapError .encoding
    | .error error => if Disk.isNotFound error then .ok "" else .error (.file error)

/-- Merges the import paths into the index; a dry run leaves the disk alone, and so does an update that
adds nothing. -/
def update (disk : Disk) (path : Path) (importPaths : List String) (dryRun : Bool)
    (faults : Faults) : Disk × Except UpdateError Update :=
  match readText disk path faults with
  | .error error => (disk, .error error)
  | .ok prior =>
    let update := Update.of prior importPaths
    if update.changed && !dryRun then
      match replaceFile disk path update.content.toUTF8 faults with
      | (disk, some error) => (disk, .error (.file error))
      | (disk, none) => (disk, .ok update)
    else (disk, .ok update)

end FfiBindings.Index
