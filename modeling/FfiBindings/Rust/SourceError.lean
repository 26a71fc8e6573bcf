import FfiBindings.Rust.Bracket
import FfiBindings.Text.Quoted

/-!
What can be wrong with source text, and on which line.
-/

set_option autoImplicit false
set_option relaxedAutoImplicit false

namespace FfiBindings.Rust

/-- The bracketed parts of a source that may be left open. -/
inductive Enclosure where
  | group (bracket : Bracket)
  | parameters (function : String)
  | body (function : String)
  deriving DecidableEq, Repr

def Enclosure.describe : Enclosure → String
  | .group bracket => s!"{bracket.opening}{bracket.closing} group"
  | .parameters function => s!"parameter list of fn {function}"
  | .body function => s!"body of fn {function}"

inductive Flaw where
  | openComment
  | openLiteral
  | openEnclosure (enclosure : Enclosure)
  /-- An `impl` or `trait` item with neither a block nor a semicolon. -/
  | noBlock (keyword : String)
  | noParameters (function : String)
  | untypedParameter (position : Nat) (function : String)
  | noReturnType (function : String)
  | unexpected (text function : String)
  deriving DecidableEq, Repr

def Flaw.message : Flaw → String
  | .openComment => "unterminated block comment"
  | .openLiteral => "unterminated literal"
  | .openEnclosure enclosure => s!"unterminated {enclosure.describe}"
  | .noBlock keyword => s!"unterminated {keyword} block"
  | .noParameters function => s!"expected parameter list after fn {function}"
  | .untypedParameter position function => s!"parameter {position} of fn {function} has no type"
  | .noReturnType function => s!"missing return type for fn {function}"
  | .unexpected text function => s!"unexpected {Text.quoted text} after signature of fn {function}"

structure SourceError where
  flaw : Flaw
  line : Nat
  deriving DecidableEq, Repr

def SourceError.message (error : SourceError) : String :=
  s!"line {error.line}: {error.flaw.message}"

end FfiBindings.Rust
