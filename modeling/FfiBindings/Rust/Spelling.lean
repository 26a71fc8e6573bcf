import FfiBindings.Rust.Lexeme

/-!
The canonical spelling of a type: words are set apart by one space, punctuation hugs its neighbours,
and commas, semicolons, arrows and plus signs are followed by a space, arrows and plus signs also
preceded by one. Two spellings of one type that differ in blanks and comments alone have the same
canonical spelling.
-/

set_option autoImplicit false
set_option relaxedAutoImplicit false

namespace FfiBindings.Rust

/-- Whether a space stands between two neighbours. -/
def isSpaced (previous next : Token) : Bool :=
  (previous.kind.isWordLike && next.kind.isWordLike) ||
    [",", ";", "->", "+"].any previous.isPunct ||
    ["->", "+"].any next.isPunct

def spellAfter (previous : Token) : List Token → String
  | [] => ""
  | token :: rest =>
    (if isSpaced previous token then " " else "") ++ token.text ++ spellAfter token rest

def spell : List Token → String
  | [] => ""
  | token :: rest => token.text ++ spellAfter token rest

/-- The canonical spelling of a type that is written in any way. -/
def canonicalType (text : String) : Except SourceError String :=
  (tokens text).map spell

end FfiBindings.Rust
