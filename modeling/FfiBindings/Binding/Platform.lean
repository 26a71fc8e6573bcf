import FfiBindings.Text.Blank
import FfiBindings.Text.LowerCase

/-!
Target platforms and how each names its shared libraries.
-/

set_option autoImplicit false
set_option relaxedAutoImplicit false

namespace FfiBindings

inductive Platform where
  | windows
  | linux
  | macos
  deriving DecidableEq, Repr

namespace Platform

def name : Platform → String
  | .windows => "win32"
  | .linux => "linux"
  | .macos => "darwin"

/-- A platform without a known naming convention. -/
structure Unsupported where
  platform : String
  deriving DecidableEq, Repr

def Unsupported.message (error : Unsupported) : String :=
  "Unsupported platform: " ++ if error.platform.isEmpty then "(empty)" else error.platform

/-- The platform that programs of this library run on. -/
def host : Platform := .linux

/-- Every name that begins with `linux` means the same platform; padding and letter case do not
matter. -/
def ofName (text : String) : Except Unsupported Platform :=
  let name := Text.lower (Text.strip text)
  if "linux".toList.isPrefixOf name.toList then .ok .linux
  else if name = Platform.windows.name then .ok .windows
  else if name = Platform.macos.name then .ok .macos
  else .error ⟨name⟩

/-- The platform of that name, or the host where none is given. -/
def resolve : Option String → Except Unsupported Platform
  | none => .ok host
  | some text => ofName text

/-- The file name of a module's library, without the suffix that the loader adds. -/
def libraryStem (platform : Platform) (moduleName : String) : String :=
  match platform with
  | .windows => moduleName
  | .linux | .macos => "lib" ++ moduleName

end Platform

end FfiBindings
