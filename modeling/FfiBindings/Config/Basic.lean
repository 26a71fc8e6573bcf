import FfiBindings.Binding.FfiType
import FfiBindings.Path

/-!
The settings of a library: where its sources are, where bindings and the index go, and how they are
made.
-/

set_option autoImplicit false
set_option relaxedAutoImplicit false

namespace FfiBindings

structure Config where
  root : Path
  sourceDirectory : String := "rs"
  outputDirectory : String := "mod"
  indexFile : String := "index.ts"
  binDirectory : String := "lib/bin"
  /-- Whether `binDirectory` has replacement characters for halves of characters. -/
  binDirectoryHalved : Bool := false
  platform : Option String := none
  workers : Int := 1
  excludedPaths : List String := []
  /-- Canonical spellings of source types, each with the interface type that stands for it. -/
  typeAliases : List (String × FfiType) := []
  templatesDirectory : Option Path := none
  deriving DecidableEq, Repr

namespace Config

def sourceRoot (config : Config) : Path := config.root.joinText config.sourceDirectory

def outputRoot (config : Config) : Path := config.root.joinText config.outputDirectory

def indexPath (config : Config) : Path := config.root.joinText config.indexFile

/-- The name of the file that holds the settings. -/
def fileName : String := ".bunbind.yml"

end Config

end FfiBindings
