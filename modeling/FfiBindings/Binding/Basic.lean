import FfiBindings.Binding.Platform
import FfiBindings.Binding.TypeTable
import FfiBindings.Rust.Signature

/-!
Bindings: what a generated module says about a shared library and its symbols. `Plan.bind` turns the
functions of a source into a binding once the platform is known; every function becomes one symbol,
in the order of the source.
-/

set_option autoImplicit false
set_option relaxedAutoImplicit false

namespace FfiBindings

/-- A function of the shared library with the interface types of its arguments and its result. -/
structure Symbol where
  name : String
  arguments : List FfiType
  returns : FfiType
  deriving DecidableEq, Repr

structure Binding where
  moduleName : String
  libraryStem : String
  binDir : String
  symbols : List Symbol
  deriving DecidableEq, Repr

namespace Binding

def exportNames (binding : Binding) : List String :=
  binding.symbols.map Symbol.name

end Binding

def Symbol.ofFunction (types : TypeTable) (function : Rust.ExportedFunction) : Symbol where
  name := function.name
  arguments := function.parameters.map fun parameter => types.resolve parameter.type
  returns := types.resolve function.returnType

/-- A directory with forward slashes and none at its end. -/
def plainDirectory (directory : String) : String :=
  let slashed := directory.toList.map fun c => if c = '\\' then '/' else c
  .ofList (slashed.reverse.dropWhile (· == '/')).reverse

/-- How the bindings of a library are made; the platform is looked up for each module, so a name
without meaning shows only where a binding is wanted. -/
structure Plan where
  platform : Option String := none
  types : TypeTable := .standard
  binDir : String := "lib/bin"

namespace Plan

def bind (plan : Plan) (moduleName : String) (functions : List Rust.ExportedFunction) :
    Except Platform.Unsupported Binding :=
  (Platform.resolve plan.platform).map fun platform =>
    { moduleName
      libraryStem := platform.libraryStem moduleName
      binDir := plainDirectory plan.binDir
      symbols := functions.map (Symbol.ofFunction plan.types) }

theorem symbols_of_bind {plan : Plan} {moduleName : String} {functions : List Rust.ExportedFunction}
    {binding : Binding} (h : plan.bind moduleName functions = .ok binding) :
    binding.symbols = functions.map (Symbol.ofFunction plan.types) := by
  rw [bind] at h
  cases hplatform : Platform.resolve plan.platform with
  | error error =>
    rw [hplatform] at h
    exact absurd h (by simp [Except.map])
  | ok platform =>
    rw [hplatform] at h
    obtain rfl := Except.ok.inj h
    rfl

end Plan

end FfiBindings
