import FfiBindings.Path
import FfiBindings.Tree.Basic

/-!
Reading and writing a tree of files by path. A path is followed part by part: every part but the last
must lead into a directory that is there, and a double dot leads out of one. What goes wrong is an
error that names the path as it was given. Making a directory with all that are missing above it may
fail after some of them are made, and those stay.
-/

set_option autoImplicit false
set_option relaxedAutoImplicit false

namespace FfiBindings

/-- Why an operation on files is refused. -/
inductive Refusal where
  | notFound
  | alreadyThere
  | notADirectory
  | isADirectory
  deriving DecidableEq, Repr

def Refusal.code : Refusal → Nat
  | .notFound => 2
  | .alreadyThere => 17
  | .notADirectory => 20
  | .isADirectory => 21

def Refusal.describe : Refusal → String
  | .notFound => "No such file or directory"
  | .alreadyThere => "File exists"
  | .notADirectory => "Not a directory"
  | .isADirectory => "Is a directory"

inductive FileError where
  | refused (refusal : Refusal) (path : Path)
  /-- A failure of the medium, in its own words. -/
  | failed (message : String)
  /-- A path with a null character names nothing on any disk. -/
  | nullInPath
  deriving DecidableEq, Repr

def FileError.message : FileError → String
  | .refused refusal path =>
    s!"[Errno {refusal.code}] {refusal.describe}: {Text.quoted path.toText}"
  | .failed message => message
  | .nullInPath => "embedded null byte"

structure Disk where
  tree : Tree
  /-- The directory that relative paths start from. -/
  current : Location := []
  /-- The permission bits that are kept from new files. -/
  umask : BitVec 9 := 0o022

namespace Disk

/-- Permission bits of a file that comes into being. -/
def newFileMode (disk : Disk) : Nat :=
  (0o666 &&& ~~~disk.umask).toNat

def hasNull (path : Path) : Bool :=
  path.parts.any fun part => part.toList.contains '\x00'

def start (disk : Disk) (path : Path) : Location :=
  if path.anchor = .current then disk.current else []

def stepTo (location : Location) (part : String) : Location :=
  if part = ".." then location.dropLast else location ++ [part]

/-- The location that the parts lead to from a directory. -/
def follow (tree : Tree) : Location → List String → Except Refusal Location
  | location, [] => .ok location
  | location, [last] => .ok (stepTo location last)
  | location, part :: next :: parts =>
    match tree.find? (stepTo location part) with
    | some (.directory _) => follow tree (stepTo location part) (next :: parts)
    | some (.file _ _) => .error .notADirectory
    | none => .error .notFound

def locate (disk : Disk) (path : Path) : Except FileError Location :=
  if hasNull path then .error .nullInPath
  else (follow disk.tree (disk.start path) path.parts).mapError (.refused · path)

/-- The entry that a path leads to, if there is one. -/
def find? (disk : Disk) (path : Path) : Option Entry :=
  match disk.locate path with
  | .ok location => disk.tree.find? location
  | .error _ => none

def contains (disk : Disk) (path : Path) : Bool :=
  (disk.find? path).isSome

def isDirectory (disk : Disk) (path : Path) : Bool :=
  (disk.find? path).any Entry.isDirectory

def isFile (disk : Disk) (path : Path) : Bool :=
  (disk.find? path).any fun entry => !entry.isDirectory

def read (disk : Disk) (path : Path) : Except FileError ByteArray :=
  match disk.locate path with
  | .error error => .error error
  | .ok location =>
    match disk.tree.find? location with
    | some (.file content _) => .ok content
    | some (.directory _) => .error (.refused .isADirectory path)
    | none => .error (.refused .notFound path)

def putAt (disk : Disk) (location : Location) (entry : Entry) : Disk :=
  { disk with tree := disk.tree.putAt entry location }

/-- Writes a file anew; one that is there keeps its permission bits. -/
def write (disk : Disk) (path : Path) (content : ByteArray) : Except FileError Disk :=
  match disk.locate path with
  | .error error => .error error
  | .ok location =>
    match disk.tree.find? location with
    | some (.file _ mode) => .ok (disk.putAt location (.file content mode))
    | some (.directory _) => .error (.refused .isADirectory path)
    | none => .ok (disk.putAt location (.file content disk.newFileMode))

/-- Makes one directory, in a directory that is there. -/
def makeDirectory (disk : Disk) (path : Path) : Except FileError Disk :=
  match disk.locate path with
  | .error error => .error error
  | .ok location =>
    match disk.tree.find? location with
    | some _ => .error (.refused .alreadyThere path)
    | none => .ok (disk.putAt location (.directory .empty))

def isNotFound : FileError → Bool
  | .refused .notFound _ => true
  | _ => false

/-- Makes a directory and those missing above it, where the parts come last one first. A directory that
is there already will do. -/
def makeDirectoriesUp (anchor : Anchor) : (disk : Disk) → (parts : List String) →
    Disk × Option FileError
  | disk, [] =>
    let path : Path := ⟨anchor, []⟩
    if disk.isDirectory path then (disk, none) else (disk, some (.refused .notFound path))
  | disk, last :: above =>
    let path : Path := ⟨anchor, (last :: above).reverse⟩
    match disk.makeDirectory path with
    | .ok disk => (disk, none)
    | .error error =>
      if isNotFound error then
        match makeDirectoriesUp anchor disk above with
        | (disk, some error) => (disk, some error)
        | (disk, none) =>
          match disk.makeDirectory path with
          | .ok disk => (disk, none)
          | .error error =>
            if !isNotFound error && disk.isDirectory path then (disk, none)
            else (disk, some error)
      else if disk.isDirectory path then (disk, none)
      else (disk, some error)

def makeDirectories (disk : Disk) (path : Path) : Disk × Option FileError :=
  makeDirectoriesUp path.anchor disk path.parts.reverse

end Disk

end FfiBindings
