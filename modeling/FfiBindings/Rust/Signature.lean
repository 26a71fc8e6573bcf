import FfiBindings.Rust.Spelling

/-!
Function signatures. After the keyword `fn` comes a name, and then in this order optional generics, the
parameter list, an optional return type, an optional where clause and a body or a semicolon. What
follows the signature is never longer than what it was read from (`Signature.read?_length`), so reading
items one after another ends.
-/

set_option autoImplicit false
set_option relaxedAutoImplicit false

namespace FfiBindings.Rust

/-- One positional argument; the name is empty where the pattern binds none. -/
structure Parameter where
  type : String
  name : String := ""
  deriving DecidableEq, Repr

/-- A function that can be called through the foreign interface. -/
structure ExportedFunction where
  name : String
  parameters : List Parameter := []
  returnType : String := "void"
  line : Nat := 0
  deriving DecidableEq, Repr

/-- The group that opens at the first token, which is the given bracket; an error names the enclosure
and the line where the construct began. -/
def enclosed (bracket : Bracket) (enclosure : Enclosure) (line : Nat) (tokens : List Token) :
    Except SourceError (List Token × List Token) :=
  match group? bracket tokens.tail with
  | some (inside, after) => .ok (inside, after)
  | none => .error ⟨.openEnclosure enclosure, line⟩

theorem enclosed_length {bracket : Bracket} {enclosure : Enclosure} {line : Nat}
    {tokens inside after : List Token}
    (h : enclosed bracket enclosure line tokens = .ok (inside, after)) :
    after.length < tokens.length := by
  unfold enclosed at h
  split at h
  · rename_i heq
    obtain ⟨-, rfl⟩ := by simpa using h
    have := group?_length heq
    simp only [List.length_tail] at this
    omega
  · simp at h

/-- A parameter is a pattern, a colon outside all brackets, and a type that is not empty. Its name is
the last name of the pattern. -/
def Parameter.read (function : String) (position : Nat) (first : Token) (rest : List Token) :
    Except SourceError Parameter :=
  let chunk := first :: rest
  match (topLevel chunk).findIdx? (·.any (·.isPunct ":")) with
  | none => .error ⟨.untypedParameter position function, first.line⟩
  | some colon =>
    let type := chunk.drop (colon + 1)
    if type.isEmpty then .error ⟨.untypedParameter position function, first.line⟩
    else
      let names := (chunk.take colon).filter fun token => token.kind == .ident && token.text != "mut"
      .ok ⟨spell type, (names.getLast?.map Token.text).getD ""⟩

/-- The parameters of the chunks, counted from the given position; empty chunks count and hold
none. -/
def readParameters (function : String) : (position : Nat) → List (List Token) →
    Except SourceError (List Parameter)
  | _, [] => .ok []
  | position, [] :: chunks => readParameters function (position + 1) chunks
  | position, (first :: rest) :: chunks => do
    let parameter ← Parameter.read function position first rest
    let parameters ← readParameters function (position + 1) chunks
    return parameter :: parameters

def endsReturnType (token : Token) : Bool :=
  token.isPunct "\x7b" || token.isPunct ";" || token.isIdent "where"

/-- The tokens of a return type: up to a brace, a semicolon or `where` outside all brackets. -/
def returnTypeSize : (depth : Int) → List Token → Nat
  | _, [] => 0
  | depth, token :: rest =>
    if depth = 0 && endsReturnType token then 0
    else returnTypeSize (depth + Bracket.depthChange Bracket.all token) rest + 1

def readReturnType (function : String) (line : Nat) (tokens : List Token) :
    Except SourceError (String × List Token) :=
  if nextIsPunct tokens "->" then
    let size := returnTypeSize 0 tokens.tail
    if size = 0 then .error ⟨.noReturnType function, line⟩
    else .ok (spell (tokens.tail.take size), tokens.tail.drop size)
  else .ok ("void", tokens)

/-- Braces do not nest in a where clause: the first one outside other brackets begins the body. -/
def whereClauseSize : (depth : Int) → List Token → Nat
  | _, [] => 0
  | depth, token :: rest =>
    if depth = 0 && (token.isPunct "\x7b" || token.isPunct ";") then 0
    else whereClauseSize (depth + Bracket.depthChange [.paren, .square, .angle] token) rest + 1

def skipWhereClause (tokens : List Token) : List Token :=
  if nextIsIdent tokens "where" then tokens.drop (whereClauseSize 0 tokens) else tokens

/-- A body in braces, a semicolon, or the end of the source. -/
def skipBody (function : String) (line : Nat) : List Token → Except SourceError (List Token)
  | [] => .ok []
  | token :: rest =>
    if token.isPunct ";" then .ok rest
    else if token.isPunct "\x7b" then
      match enclosed .brace (.body function) line (token :: rest) with
      | .ok (_, after) => .ok after
      | .error error => .error error
    else .error ⟨.unexpected token.text function, token.line⟩

/-- A function as it is written, exported or not. -/
structure Signature where
  function : ExportedFunction
  isGeneric : Bool
  deriving DecidableEq, Repr

namespace Signature

/-- A name without the mark of a raw identifier. -/
def plainName (text : String) : String :=
  match text.toList with
  | 'r' :: '#' :: rest => .ofList rest
  | _ => text

def skipGenerics (line : Nat) (tokens : List Token) : Except SourceError (Bool × List Token) :=
  if nextIsPunct tokens "<" then
    match enclosed .angle (.group .angle) line tokens with
    | .ok (_, after) => .ok (true, after)
    | .error error => .error error
  else .ok (false, tokens)

/-- Reads what follows the name of a function. -/
def readNamed (name : String) (line : Nat) (tokens : List Token) :
    Except SourceError (Signature × List Token) := do
  let (isGeneric, tokens) ← skipGenerics line tokens
  if !nextIsPunct tokens "(" then
    throw ⟨.noParameters name, line⟩
  let (inside, tokens) ← enclosed .paren (.parameters name) line tokens
  let parameters ← readParameters name 1 (splitTopLevel "," inside)
  let (returnType, tokens) ← readReturnType name line tokens
  let tokens ← skipBody name line (skipWhereClause tokens)
  return (⟨⟨name, parameters, returnType, line⟩, isGeneric⟩, tokens)

/-- Reads what follows the keyword `fn` on the given line. Without a name it is the type of a function
pointer, and there is no signature. -/
def read? (line : Nat) (tokens : List Token) :
    Except SourceError (Option Signature × List Token) :=
  match tokens with
  | token :: rest =>
    if token.kind == .ident then
      match readNamed (plainName token.text) line rest with
      | .ok (signature, after) => .ok (some signature, after)
      | .error error => .error error
    else .ok (none, tokens)
  | [] => .ok (none, [])

theorem skipGenerics_length {line : Nat} {tokens after : List Token} {isGeneric : Bool}
    (h : skipGenerics line tokens = .ok (isGeneric, after)) : after.length ≤ tokens.length := by
  unfold skipGenerics at h
  split at h
  · split at h
    · rename_i heq
      obtain ⟨-, rfl⟩ := by simpa using h
      exact Nat.le_of_lt (enclosed_length heq)
    · simp at h
  · obtain ⟨-, rfl⟩ := by simpa using h
    exact Nat.le_refl _

theorem readReturnType_length {function type : String} {line : Nat} {tokens after : List Token}
    (h : readReturnType function line tokens = .ok (type, after)) :
    after.length ≤ tokens.length := by
  simp only [readReturnType] at h
  split at h
  · split at h
    · simp at h
    · obtain ⟨-, rfl⟩ := by simpa using h
      simp only [List.length_drop]
      omega
  · obtain ⟨-, rfl⟩ := by simpa using h
    exact Nat.le_refl _

theorem skipWhereClause_length (tokens : List Token) :
    (skipWhereClause tokens).length ≤ tokens.length := by
  unfold skipWhereClause
  split <;> simp

theorem skipBody_length {function : String} {line : Nat} {tokens after : List Token}
    (h : skipBody function line tokens = .ok after) : after.length ≤ tokens.length := by
  unfold skipBody at h
  split at h
  · simp_all
  · split at h
    · obtain rfl := by simpa using h
      simp
    · split at h
      · split at h
        · rename_i heq
          obtain rfl := by simpa using h
          exact Nat.le_of_lt (enclosed_length heq)
        · simp at h
      · simp at h

theorem readNamed_length {name : String} {line : Nat} {tokens after : List Token}
    {signature : Signature} (h : readNamed name line tokens = .ok (signature, after)) :
    after.length ≤ tokens.length := by
  unfold readNamed at h
  cases hgen : skipGenerics line tokens with
  | error => simp [hgen, bind, Except.bind] at h
  | ok generics =>
    obtain ⟨isGeneric, rest⟩ := generics
    have h1 := skipGenerics_length hgen
    simp only [hgen, bind, Except.bind] at h
    split at h
    · simp [throw, throwThe, MonadExceptOf.throw] at h
    · simp only [pure, Except.pure] at h
      split at h
      · simp at h
      · rename_i _ _ hgroup
        have h2 := enclosed_length hgroup
        split at h
        · simp at h
        · split at h
          · simp at h
          · rename_i _ _ hret
            have h3 := readReturnType_length hret
            split at h
            · simp at h
            · rename_i _ _ hbody
              have h4 := Nat.le_trans (skipBody_length hbody) (skipWhereClause_length _)
              obtain ⟨-, rfl⟩ := by simpa using h
              omega

theorem read?_length {line : Nat} {tokens after : List Token} {signature : Option Signature}
    (h : read? line tokens = .ok (signature, after)) : after.length ≤ tokens.length := by
  unfold read? at h
  split at h
  · split at h
    · split at h
      · rename_i heq
        obtain ⟨-, rfl⟩ := by simpa using h
        exact Nat.le_succ_of_le (readNamed_length heq)
      · simp at h
    · obtain ⟨-, rfl⟩ := by simpa using h
      exact Nat.le_refl _
  · obtain ⟨-, rfl⟩ := by simpa using h
    exact Nat.le_refl _

end Signature

end FfiBindings.Rust
