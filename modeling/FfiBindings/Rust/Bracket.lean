import FfiBindings.Rust.Token

/-!
Bracketed groups in token lists. `group?` finds the end of a group by counting the one kind of bracket
that opened it, so the other kinds may be unbalanced inside; `topLevel` and `splitTopLevel` count all
four kinds together. Only punctuation counts: the arrow `->` is one token and closes nothing.
-/

set_option autoImplicit false
set_option relaxedAutoImplicit false

namespace FfiBindings.Rust

inductive Bracket where
  | paren
  | square
  | brace
  | angle
  deriving DecidableEq, Repr

namespace Bracket

def opening : Bracket → String
  | .paren => "("
  | .square => "["
  | .brace => "\x7b"
  | .angle => "<"

def closing : Bracket → String
  | .paren => ")"
  | .square => "]"
  | .brace => "\x7d"
  | .angle => ">"

def all : List Bracket := [.paren, .square, .brace, .angle]

def opens (bracket : Bracket) (token : Token) : Bool :=
  token.isPunct bracket.opening

def closes (bracket : Bracket) (token : Token) : Bool :=
  token.isPunct bracket.closing

/-- The bracket among the given ones that the token opens. -/
def opened? (among : List Bracket) (token : Token) : Option Bracket :=
  among.find? (·.opens token)

/-- How a token changes the depth, where only the given brackets count. -/
def depthChange (among : List Bracket) (token : Token) : Int :=
  if among.any (·.opens token) then 1
  else if among.any (·.closes token) then -1
  else 0

end Bracket

/-- Splits what follows an opening bracket into the inside of its group and what follows the group;
`depth` counts the groups of the same bracket that are open inside. -/
def groupFrom? (bracket : Bracket) : (depth : Nat) → List Token → Option (List Token × List Token)
  | _, [] => none
  | depth, token :: rest =>
    if bracket.opens token then
      (groupFrom? bracket (depth + 1) rest).map fun (inside, after) => (token :: inside, after)
    else if bracket.closes token then
      if depth = 0 then some ([], rest)
      else (groupFrom? bracket (depth - 1) rest).map fun (inside, after) => (token :: inside, after)
    else
      (groupFrom? bracket depth rest).map fun (inside, after) => (token :: inside, after)

/-- The inside of the group whose opening bracket comes just before, and what follows the group. -/
def group? (bracket : Bracket) (tokens : List Token) : Option (List Token × List Token) :=
  groupFrom? bracket 0 tokens

theorem groupFrom?_length {bracket : Bracket} {depth : Nat} {tokens inside after : List Token}
    (h : groupFrom? bracket depth tokens = some (inside, after)) :
    after.length < tokens.length := by
  induction tokens generalizing depth inside with
  | nil => simp [groupFrom?] at h
  | cons token rest ih =>
    have step {depth' : Nat}
        (h : (groupFrom? bracket depth' rest).map (fun (inside, after) => (token :: inside, after)) =
          some (inside, after)) : after.length < (token :: rest).length := by
      obtain ⟨⟨inner, tail⟩, hinner, heq⟩ := Option.map_eq_some_iff.1 h
      obtain ⟨-, rfl⟩ := by simpa using heq
      exact Nat.lt_succ_of_lt (ih hinner)
    simp only [groupFrom?] at h
    split at h
    · exact step h
    · split at h
      · split at h
        · obtain ⟨-, rfl⟩ := by simpa using h
          simp
        · exact step h
      · exact step h

theorem group?_length {bracket : Bracket} {tokens inside after : List Token}
    (h : group? bracket tokens = some (inside, after)) : after.length < tokens.length :=
  groupFrom?_length h

/-- Every token that stands outside all brackets, with `none` for the brackets and for the tokens
inside them. A closing bracket without its opening one makes the depth negative, and what follows
counts as inside. -/
def topLevelFrom : (depth : Int) → List Token → List (Option Token)
  | _, [] => []
  | depth, token :: rest =>
    let change := Bracket.depthChange Bracket.all token
    (if change = 0 && depth = 0 then some token else none) :: topLevelFrom (depth + change) rest

def topLevel (tokens : List Token) : List (Option Token) :=
  topLevelFrom 0 tokens

/-- Puts a token in front of the first chunk. -/
def consToFirst (token : Token) : List (List Token) → List (List Token)
  | [] => [[token]]
  | chunk :: chunks => (token :: chunk) :: chunks

/-- Cuts the tokens at the separators outside all brackets; the separators are dropped. -/
def splitTopLevelFrom (separator : String) : (depth : Int) → List Token → List (List Token)
  | _, [] => [[]]
  | depth, token :: rest =>
    let change := Bracket.depthChange Bracket.all token
    let chunks := splitTopLevelFrom separator (depth + change) rest
    if change = 0 && depth = 0 && token.isPunct separator then [] :: chunks
    else consToFirst token chunks

def splitTopLevel (separator : String) (tokens : List Token) : List (List Token) :=
  splitTopLevelFrom separator 0 tokens

end FfiBindings.Rust
