import FfiBindings.CommandLine.Program
import Std.Time.Format

/-!
The program on a real machine. What a command line may touch is read into a tree first, the command line is
carried out on the tree, and what has changed is written back: a file that is there keeps its permission
bits.
-/

set_option autoImplicit false
set_option relaxedAutoImplicit false

namespace FfiBindings.Machine

/-- No path of a machine is deeper. -/
def depthLimit : Nat := 2048

/-- Permission bits that stand for those of a file on the machine, which are not read. -/
def unreadMode : Nat := 0o644

def spelled (location : Location) : String :=
  "/" ++ "/".intercalate location

/-- The file or directory at a location, if it is there and can be read, with what is in it down to the given
depth. -/
def entryAt : (depth : Nat) → (location : Location) → IO (Option Entry)
  | depth, location => do
    let path := (← IO.currentDir) / spelled location
    if ← path.isDir then
      match depth with
      | 0 => return some (.directory .empty)
      | depth + 1 =>
        let mut inside := Tree.empty
        for found in ← path.readDir do
          match ← entryAt depth (location ++ [found.fileName]) with
          | some entry => inside := Tree.cons found.fileName entry inside
          | none => pure ()
        return some (.directory inside)
    else if ← path.pathExists then
      try
        return some (.file (← IO.FS.readBinFile path) unreadMode)
      catch _ => return none
    else return none

/-- Reads what is at a location into the disk, unless it is there already; of a directory only that it is
there. -/
def look (disk : Disk) (location : Location) : IO Disk := do
  if (disk.tree.find? location).isSome then return disk
  match ← entryAt 0 location with
  | some entry => return { disk with tree := disk.tree.putAt entry location }
  | none => return disk

/-- Reads what a path leads through and to. -/
def follow (disk : Disk) (path : Path) : IO Disk :=
  (List.range (path.parts.length + 1)).foldlM (fun disk count =>
    look disk (Path.absolute ⟨path.anchor, path.parts.take count⟩ disk.current).parts) disk

/-- Reads what a path leads to with all that is in it. -/
def explore (disk : Disk) (path : Path) : IO Disk := do
  let disk ← follow disk path
  let location := (path.absolute disk.current).parts
  match ← entryAt depthLimit location with
  | some entry => return { disk with tree := disk.tree.putAt entry location }
  | none => return disk

/-- Reads what a run of the configured library may touch. -/
def exploreLibrary (disk : Disk) (config : Config) : IO Disk := do
  let mut disk ← explore disk config.sourceRoot
  for directory in config.templatesDirectory.toList do
    disk ← follow disk (directory.child Template.fileName)
  disk ← follow disk config.indexPath
  match scan disk (Generation.selectionOf config) config.root config.sourceDirectory with
  | .error _ => return disk
  | .ok sources =>
    for source in sources do
      disk ← follow disk (source.bindingPath config.outputRoot)
    return disk

/-- Reads what a command line may touch. -/
def exploreFor (disk : Disk) (invocation : CommandLine.Invocation) : IO Disk := do
  let operand := Path.ofText invocation.operand
  let mut disk ← follow disk operand
  for text in invocation.arguments.logFile.toList do
    disk ← follow disk (.ofText text)
  match invocation.command with
  | .inspect => return disk
  | .generate =>
    disk ← follow disk (Config.filePath disk operand)
    match Config.load disk operand with
    | .error _ => return disk
    | .ok config => exploreLibrary disk config

/-- Writes back what has changed at a location. -/
def writeBack (before : Tree) (location : Location) (entry : Entry) : IO Unit := do
  match entry, before.find? location with
  | .directory _, some (.directory _) => return
  | .directory _, _ => IO.FS.createDirAll (spelled location)
  | .file content _, some (.file old _) =>
    if content.data.toList ≠ old.data.toList then IO.FS.writeBinFile (spelled location) content
  | .file content _, _ => IO.FS.writeBinFile (spelled location) content

def fileClock : IO String := do
  return (← Std.Time.PlainDateTime.now).format "uuuu-MM-dd HH:mm:ss,SSS"

/-- Carries out a command line. -/
def run (words : List String) : IO UInt32 := do
  let current := Path.ofText (← IO.currentDir).toString
  let disk ← follow { tree := .empty, current := current.parts } current
  let disk ← match CommandLine.Invocation.ofWords words with
    | .error _ => pure disk
    | .ok invocation => exploreFor disk invocation
  let (session, ending) := CommandLine.run { disk, journal := { clock := ← fileClock } } words
  for (location, entry) in session.disk.tree.entries do
    writeBack disk.tree location entry
  IO.eprint session.journal.console
  IO.print ending.output
  match ending.result with
  | .ok status => return status.toUInt32
  | .error failure =>
    IO.eprintln failure.message
    return 1

end FfiBindings.Machine

def main (words : List String) : IO UInt32 :=
  FfiBindings.Machine.run words
