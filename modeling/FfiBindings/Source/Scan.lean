import FfiBindings.Source.IgnoreRule
import FfiBindings.Source.Module
import FfiBindings.Text.LowerCase
import FfiBindings.Tree.Disk

/-!
Discovery of source modules. The walk goes down from the source root into every directory that is
neither a well-known store of other files nor ignored, and takes the files with a source suffix that no
rule ignores. The modules come in the order of their paths, so the order of a directory's entries does
not show.
-/

set_option autoImplicit false
set_option relaxedAutoImplicit false

namespace FfiBindings

/-- Which files are sources. -/
structure Selection where
  /-- Suffixes in lower case. -/
  suffixes : List String
  rules : List IgnoreRule

namespace Selection

def of (suffixes excluded : List String) : Selection where
  suffixes := suffixes.map Text.lower
  rules := excluded.filterMap IgnoreRule.ofText?

def ignores (selection : Selection) (path : String) (isDirectory : Bool) : Bool :=
  selection.rules.any (·.applies path isDirectory)

def hasSuffix (selection : Selection) (fileName : String) : Bool :=
  selection.suffixes.any fun suffix => suffix.toList.isSuffixOf (Text.lower fileName).toList

/-- Directories that hold version control data, build results or dependencies. -/
def storeNames : List String :=
  [".git", ".hg", ".svn", "target", "node_modules", "__pycache__"]

/-- The path of an entry below the library root, as the ignore rules see it. -/
def rulePath (directory : Path) (name : String) : String :=
  directory.toText ++ "/" ++ name

def enters (selection : Selection) (directory : Path) (name : String) : Bool :=
  !storeNames.contains name && !selection.ignores (rulePath directory name) true

def takes (selection : Selection) (directory : Path) (name : String) : Bool :=
  selection.hasSuffix name && !selection.ignores (rulePath directory name) false

/-- The sources below a directory, each with the directories down to it. The path leads from the library
root to the source root, and the list from there to the directory. -/
def walk (selection : Selection) (sourceRoot : Path) (directory : List String) :
    Tree → List (List String × String)
  | .empty => []
  | .file name _ _ rest =>
    let others := selection.walk sourceRoot directory rest
    if selection.takes (sourceRoot.join ⟨.current, directory⟩) name then (directory, name) :: others
    else others
  | .directory name inside rest =>
    let others := selection.walk sourceRoot directory rest
    if selection.enters (sourceRoot.join ⟨.current, directory⟩) name then
      selection.walk sourceRoot (directory ++ [name]) inside ++ others
    else others

end Selection

inductive ScanError where
  | notFound (root : Path)
  | notADirectory (root : Path)
  | outside (error : Path.NotBelow)
  deriving DecidableEq, Repr

def ScanError.message : ScanError → String
  | .notFound root => s!"Library path not found: {root.toText}"
  | .notADirectory root => s!"Library path is not a directory: {root.toText}"
  | .outside error => error.message

def pathLe (a b : SourceModule) : Bool :=
  !(b.path.toText < a.path.toText)

/-- The modules below the source directory of a library, by path. A library without the directory has
none. -/
def scan (disk : Disk) (selection : Selection) (root : Path) (sourceDirectory : String) :
    Except ScanError (List SourceModule) :=
  let root := root.absolute disk.current
  match disk.find? root with
  | none => .error (.notFound root)
  | some (.file _ _) => .error (.notADirectory root)
  | some (.directory _) =>
    let sourceRoot := root.joinText sourceDirectory
    match disk.find? sourceRoot with
    | some (.directory tree) =>
      match sourceRoot.relativeTo root with
      | .error error => .error (.outside error)
      | .ok relative =>
        let found := selection.walk relative [] tree
        .ok ((found.map fun (directory, name) =>
          ⟨(sourceRoot.join ⟨.current, directory⟩).child name, directory⟩).mergeSort pathLe)
    | _ => .ok []

end FfiBindings
