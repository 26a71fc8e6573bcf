/-!
Tokens of Rust source. A token keeps its text as it was written and the line it begins on, counted
from one. Two neighbours of the kinds in `Kind.isWordLike` need a blank between them to stay apart.
-/

set_option autoImplicit false
set_option relaxedAutoImplicit false

namespace FfiBindings.Rust

namespace Token

inductive Kind where
  | ident
  | lifetime
  | string
  | char
  | number
  | punct
  deriving DecidableEq, Repr

def Kind.name : Kind → String
  | .ident => "ident"
  | .lifetime => "lifetime"
  | .string => "string"
  | .char => "char"
  | .number => "number"
  | .punct => "punct"

/-- Kinds of which two in a row are written with a space between them. -/
def Kind.isWordLike : Kind → Bool
  | .ident | .lifetime | .number | .string => true
  | .char | .punct => false

end Token

structure Token where
  kind : Token.Kind
  text : String
  line : Nat
  deriving DecidableEq, Repr

namespace Token

def isPunct (token : Token) (text : String) : Bool :=
  token.kind == .punct && token.text == text

def isIdent (token : Token) (text : String) : Bool :=
  token.kind == .ident && token.text == text

end Token

/-- Whether the next token is the given punctuation. -/
def nextIsPunct (tokens : List Token) (text : String) : Bool :=
  tokens.head?.any (·.isPunct text)

def nextIsIdent (tokens : List Token) (text : String) : Bool :=
  tokens.head?.any (·.isIdent text)

def nextIsKind (tokens : List Token) (kind : Token.Kind) : Bool :=
  tokens.head?.any (·.kind == kind)

end FfiBindings.Rust
