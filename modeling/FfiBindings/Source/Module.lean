import FfiBindings.Path

/-!
Source modules: where the binding of a source file is written and how the index imports it. Both follow
the directory of the file below the source root.
-/

set_option autoImplicit false
set_option relaxedAutoImplicit false

namespace FfiBindings

/-- A source file and the directories from the source root down to it. -/
structure SourceModule where
  path : Path
  directory : List String
  deriving DecidableEq, Repr

namespace SourceModule

def ofPath (path root : Path) : Except Path.NotBelow SourceModule :=
  (path.relativeTo root).map fun relative => ⟨path, relative.parent.parts⟩

/-- The name of the module, which names its library too. -/
def baseName (source : SourceModule) : String :=
  source.path.stem

def relativeDirectory (source : SourceModule) : Path :=
  ⟨.current, source.directory⟩

def bindingPath (source : SourceModule) (outputRoot : Path) : Path :=
  (outputRoot.join source.relativeDirectory).child (source.baseName ++ ".ts")

def withForwardSlashes (text : String) : String :=
  .ofList (text.toList.map fun c => if c = '\\' then '/' else c)

/-- What the index imports: the binding without its suffix, seen from the library root. -/
def importPath (source : SourceModule) (outputDirectory : String) : String :=
  let output := Path.ofText (withForwardSlashes outputDirectory)
  "./" ++ ((output.join source.relativeDirectory).joinText source.baseName).toText

end SourceModule

end FfiBindings
