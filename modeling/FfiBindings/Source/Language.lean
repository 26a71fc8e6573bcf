import FfiBindings.Path
import FfiBindings.Rust.Item
import FfiBindings.Text.LowerCase

/-!
Source languages: which files they are written in and how their exported functions are found.
-/

set_option autoImplicit false
set_option relaxedAutoImplicit false

namespace FfiBindings

inductive Language where
  | rust
  deriving DecidableEq, Repr

namespace Language

def name : Language → String
  | .rust => "rust"

def all : List Language := [.rust]

/-- The suffixes of the files of a language, in lower case. -/
def suffixes : Language → List String
  | .rust => [".rs"]

def ofName? (text : String) : Option Language :=
  all.find? (·.name == text)

/-- Names of no language, in lower case and sorted. -/
structure UnknownNames where
  names : List String
  deriving DecidableEq, Repr

def UnknownNames.message (unknown : UnknownNames) : String :=
  "Unknown extractors requested: " ++ ", ".intercalate unknown.names

/-- The languages of the given names, each once, or all of them where no names are given. Letter case
does not matter. -/
def select : Option (List String) → Except UnknownNames (List Language)
  | none => .ok all
  | some names =>
    let wanted := names.map Text.lower
    let unknown := wanted.filter fun name => (ofName? name).isNone
    if unknown.isEmpty then .ok (wanted.filterMap ofName?).eraseDups
    else .error ⟨unknown.mergeSort fun a b => !(b < a)⟩

def supports (language : Language) (path : Path) : Bool :=
  language.suffixes.contains (Text.lower path.suffix)

/-- The first of the languages that the path is written in. -/
def choose? (languages : List Language) (path : Path) : Option Language :=
  languages.find? (·.supports path)

/-- All that a source of the language holds. -/
def survey : Language → String → Rust.Survey
  | .rust, source => Rust.Survey.ofSource source

end Language

end FfiBindings
