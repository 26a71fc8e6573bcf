import FfiBindings.Rust.SourceError
import FfiBindings.Text.Blank
import FfiBindings.Text.Word

/-!
Cutting Rust source into lexemes: blanks, comments and tokens. At every position the alternatives are
tried in a fixed order, comments and blanks first, then literals, names and numbers, and punctuation
last; each says how many characters it takes.
-/

set_option autoImplicit false
set_option relaxedAutoImplicit false

namespace FfiBindings.Rust

open Text

inductive Lexeme where
  | blanks
  | lineComment
  | blockComment
  | token (kind : Token.Kind)
  deriving DecidableEq, Repr

namespace Lexeme

/-- The length of a block comment up to the marker that closes the outermost comment, for a text that
stands inside `depth` comments. Block comments nest. -/
def blockCommentLength? : (depth : Nat) → List Char → Option Nat
  | depth, '/' :: '*' :: rest => (blockCommentLength? (depth + 1) rest).map (· + 2)
  | depth, '*' :: '/' :: rest =>
    if depth ≤ 1 then some 2 else (blockCommentLength? (depth - 1) rest).map (· + 2)
  | depth, _ :: rest => (blockCommentLength? depth rest).map (· + 1)
  | _, [] => none

/-- The length of what follows the opening quote of a raw string, up to the first quote with as many
hashes after it as stand before the opening one. -/
def rawBodyLength? (hashes : Nat) : List Char → Option Nat
  | [] => none
  | c :: rest =>
    if c = '"' && (List.replicate hashes '#').isPrefixOf rest then some (1 + hashes)
    else (rawBodyLength? hashes rest).map (· + 1)

/-- How many letters introduce a raw string. -/
def rawMark? : List Char → Option Nat
  | 'r' :: _ => some 1
  | 'b' :: 'r' :: _ => some 2
  | _ => none

def rawStringLength? (cs : List Char) : Option Nat := do
  let mark ← rawMark? cs
  let hashes := ((cs.drop mark).takeWhile (· == '#')).length
  match cs.drop (mark + hashes) with
  | '"' :: body => (rawBodyLength? hashes body).map (mark + hashes + 1 + ·)
  | _ => none

/-- The length of what follows the opening quote of a string: a backslash takes the next character
with it, whatever that is. -/
def quotedBodyLength? : List Char → Option Nat
  | '\\' :: _ :: rest => (quotedBodyLength? rest).map (· + 2)
  | ['\\'] => none
  | '"' :: _ => some 1
  | _ :: rest => (quotedBodyLength? rest).map (· + 1)
  | [] => none

def quotedStringLength? : List Char → Option Nat
  | '"' :: body => (quotedBodyLength? body).map (· + 1)
  | 'b' :: '"' :: body => (quotedBodyLength? body).map (· + 2)
  | _ => none

def stringLength? (cs : List Char) : Option Nat :=
  (rawStringLength? cs).or (quotedStringLength? cs)

def isHexDigit (c : Char) : Bool :=
  c.isDigit || ('a' ≤ c && c ≤ 'f') || ('A' ≤ c && c ≤ 'F')

/-- The length of one escaped or plain character and the apostrophe after it. -/
def charBodyLength? : List Char → Option Nat
  | '\\' :: 'u' :: '{' :: rest =>
    let digits := (rest.takeWhile isHexDigit).length
    match rest.drop digits with
    | '}' :: '\'' :: _ => if digits = 0 then none else some (digits + 5)
    | _ => none
  | '\\' :: 'x' :: a :: b :: '\'' :: _ =>
    if isHexDigit a && isHexDigit b then some 5 else if a = '\'' then some 3 else none
  | '\\' :: _ :: '\'' :: _ => some 3
  | c :: '\'' :: _ => if c = '\\' || c = '\'' || c = '\n' then none else some 2
  | _ => none

def charLength? : List Char → Option Nat
  | '\'' :: body => (charBodyLength? body).map (· + 1)
  | 'b' :: '\'' :: body => (charBodyLength? body).map (· + 2)
  | _ => none

def wordLength (cs : List Char) : Nat :=
  (cs.takeWhile isWord).length

def lifetimeLength? : List Char → Option Nat
  | '\'' :: c :: rest => if isWordStart c then some (2 + wordLength rest) else none
  | _ => none

def nameLength? : List Char → Option Nat
  | c :: rest => if isWordStart c then some (1 + wordLength rest) else none
  | [] => none

/-- A name, which the mark `r#` may introduce. -/
def identLength? (cs : List Char) : Option Nat :=
  match cs with
  | 'r' :: '#' :: rest => ((nameLength? rest).map (· + 2)).or (nameLength? cs)
  | _ => nameLength? cs

/-- Digits and letters, and after a point once more if a digit follows it. -/
def numberLength? : List Char → Option Nat
  | c :: rest =>
    if isDecimal c then
      let size := 1 + wordLength rest
      match rest.drop (wordLength rest) with
      | '.' :: d :: fraction => if isDecimal d then some (size + 2 + wordLength fraction) else some size
      | _ => some size
    else none
  | [] => none

def punctLength : List Char → Nat
  | ':' :: ':' :: _ => 2
  | '-' :: '>' :: _ => 2
  | '=' :: '>' :: _ => 2
  | '.' :: '.' :: '=' :: _ => 3
  | '.' :: '.' :: '.' :: _ => 3
  | '.' :: '.' :: _ => 2
  | _ => 1

/-- The first of the alternatives with a variable length that fits. -/
def literalOrName? (cs : List Char) : Option (Token.Kind × Nat) :=
  (((((stringLength? cs).map (Token.Kind.string, ·)).or
    ((charLength? cs).map (Token.Kind.char, ·))).or
    ((lifetimeLength? cs).map (Token.Kind.lifetime, ·))).or
    ((identLength? cs).map (Token.Kind.ident, ·))).or
    ((numberLength? cs).map (Token.Kind.number, ·))

/-- The lexeme at the beginning of a text and its length. A quote that begins no literal is the one
thing that no lexeme takes. -/
def first (c : Char) (rest : List Char) : Except Flaw (Lexeme × Nat) :=
  let cs := c :: rest
  if ['/', '*'].isPrefixOf cs then
    match blockCommentLength? 0 cs with
    | some size => .ok (.blockComment, size)
    | none => .error .openComment
  else if isBlank c then .ok (.blanks, (cs.takeWhile isBlank).length)
  else if ['/', '/'].isPrefixOf cs then
    .ok (.lineComment, (cs.takeWhile (· != '\n')).length)
  else
    match literalOrName? cs with
    | some (kind, size) => .ok (.token kind, size)
    | none =>
      if c = '"' || c = '\'' then .error .openLiteral
      else .ok (.token .punct, punctLength cs)

end Lexeme

/-- A stretch of source with the line it begins on. -/
structure Piece where
  lexeme : Lexeme
  text : List Char
  line : Nat
  deriving DecidableEq, Repr

def Piece.token? (piece : Piece) : Option Token :=
  match piece.lexeme with
  | .token kind => some ⟨kind, .ofList piece.text, piece.line⟩
  | _ => none

/-- The pieces of a source whose first line has the given number. -/
def piecesFrom (line : Nat) : List Char → Except SourceError (List Piece)
  | [] => .ok []
  | c :: rest =>
    match Lexeme.first c rest with
    | .error flaw => .error ⟨flaw, line⟩
    | .ok (lexeme, size) =>
      let text := c :: rest.take (size - 1)
      match piecesFrom (line + text.count '\n') (rest.drop (size - 1)) with
      | .error error => .error error
      | .ok pieces => .ok (⟨lexeme, text, line⟩ :: pieces)
termination_by cs => cs.length

/-- The tokens of a source, without its blanks and comments. -/
def tokens (source : String) : Except SourceError (List Token) :=
  (piecesFrom 1 source.toList).map (·.filterMap Piece.token?)

end FfiBindings.Rust
