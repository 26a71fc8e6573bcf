import FfiBindings.Rust.Signature

/-!
The items of a source file. A cursor goes over the tokens with the modifiers seen since the last item
began; a function is exported when it is public and has a foreign calling convention or an unmangled
name. Bodies, `impl` and `trait` blocks, blocks of imports and macro calls are passed over whole.
`step_length` states that every step takes at least the token it looks at.
-/

set_option autoImplicit false
set_option relaxedAutoImplicit false

namespace FfiBindings.Rust

/-- What has been said about the item that is being read. -/
structure Modifiers where
  isPublic : Bool := false
  hasForeignAbi : Bool := false
  isUnmangled : Bool := false
  deriving DecidableEq, Repr

def Modifiers.exports (modifiers : Modifiers) : Bool :=
  modifiers.isPublic && (modifiers.hasForeignAbi || modifiers.isUnmangled)

/-- What a source file turns out to hold, in the order of the file. -/
inductive Finding where
  | exported (function : ExportedFunction)
  /-- A generic function has no symbol of its own, so it cannot be bound. -/
  | genericSkipped (function : String) (line : Nat)
  deriving DecidableEq, Repr

def Finding.function? : Finding → Option ExportedFunction
  | .exported function => some function
  | .genericSkipped _ _ => none

/-- The outcome of reading one item or part of one. -/
structure Step where
  modifiers : Modifiers
  rest : List Token
  finding : Option Finding := none

namespace Item

/-- Passes over the next token where the condition holds. -/
def dropNextIf (condition : Bool) (tokens : List Token) : List Token :=
  if condition then tokens.tail else tokens

theorem dropNextIf_length (condition : Bool) (tokens : List Token) :
    (dropNextIf condition tokens).length ≤ tokens.length := by
  unfold dropNextIf
  split <;> simp

/-- `#[...]` belongs to the item that follows, `#![...]` to the one around it. -/
def attributes (modifiers : Modifiers) (line : Nat) (tokens : List Token) :
    Except SourceError Step :=
  let isInner := nextIsPunct tokens "!"
  let tokens := dropNextIf isInner tokens
  if nextIsPunct tokens "[" then
    match enclosed .square (.group .square) line tokens with
    | .ok (inside, after) =>
      let unmangles := !isInner && inside.any (·.isIdent "no_mangle")
      .ok ⟨{ modifiers with isUnmangled := modifiers.isUnmangled || unmangles }, after, none⟩
    | .error error => .error error
  else .ok ⟨modifiers, tokens, none⟩

/-- Only `pub` by itself is visible across the boundary, `pub(crate)` and the like are not. -/
def visibility (modifiers : Modifiers) (tokens : List Token) : Except SourceError Step :=
  match tokens with
  | token :: _ =>
    if token.isPunct "(" then
      match enclosed .paren (.group .paren) token.line tokens with
      | .ok (_, after) => .ok ⟨modifiers, after, none⟩
      | .error error => .error error
    else .ok ⟨{ modifiers with isPublic := true }, tokens, none⟩
  | [] => .ok ⟨{ modifiers with isPublic := true }, [], none⟩

/-- A calling convention, or a block of functions that are imported. -/
def foreign (modifiers : Modifiers) (line : Nat) (tokens : List Token) : Except SourceError Step :=
  let tokens := dropNextIf (nextIsKind tokens .string) tokens
  if nextIsPunct tokens "\x7b" then
    match enclosed .brace (.group .brace) line tokens with
    | .ok (_, after) => .ok ⟨{}, after, none⟩
    | .error error => .error error
  else .ok ⟨{ modifiers with hasForeignAbi := true }, tokens, none⟩

def function (modifiers : Modifiers) (line : Nat) (tokens : List Token) : Except SourceError Step :=
  match Signature.read? line tokens with
  | .error error => .error error
  | .ok (none, after) => .ok ⟨{}, after, none⟩
  | .ok (some signature, after) =>
    let finding :=
      if !modifiers.exports then none
      else if signature.isGeneric then some (.genericSkipped signature.function.name line)
      else some (.exported signature.function)
    .ok ⟨{}, after, finding⟩

/-- How many tokens come before the block or the semicolon of an `impl` or `trait` item, where
parentheses and square brackets may hold either. -/
def headerSize? : (depth : Int) → List Token → Option Nat
  | _, [] => none
  | depth, token :: rest =>
    if depth = 0 && (token.isPunct ";" || token.isPunct "\x7b") then some 0
    else (headerSize? (depth + Bracket.depthChange [.paren, .square] token) rest).map (· + 1)

def block (keyword : Token) (tokens : List Token) : Except SourceError Step :=
  match headerSize? 0 tokens with
  | none => .error ⟨.noBlock keyword.text, keyword.line⟩
  | some size =>
    let tokens := tokens.drop size
    if nextIsPunct tokens ";" then .ok ⟨{}, tokens.tail, none⟩
    else
      match enclosed .brace (.group .brace) keyword.line tokens with
      | .ok (_, after) => .ok ⟨{}, after, none⟩
      | .error error => .error error

/-- A macro call after its name; a definition has one more name before the brackets. -/
def macroCall (line : Nat) (tokens : List Token) : Except SourceError Step :=
  let tokens := tokens.tail
  let tokens := dropNextIf (nextIsKind tokens .ident) tokens
  match tokens.head?.bind (Bracket.opened? [.paren, .square, .brace]) with
  | none => .ok ⟨{}, tokens, none⟩
  | some bracket =>
    match enclosed bracket (.group bracket) line tokens with
    | .ok (_, after) => .ok ⟨{}, after, none⟩
    | .error error => .error error

/-- Reads on from the given token. Qualifiers and all else that says nothing about the export of an
item are passed over one token at a time. -/
def step (modifiers : Modifiers) (token : Token) (rest : List Token) : Except SourceError Step :=
  if token.isPunct "#" then attributes modifiers token.line rest
  else if token.isIdent "pub" then visibility modifiers rest
  else if token.isIdent "extern" then foreign modifiers token.line rest
  else if token.isIdent "fn" then function modifiers token.line rest
  else if token.isIdent "impl" || token.isIdent "trait" then block token rest
  else if token.kind == .ident && nextIsPunct rest "!" then macroCall token.line rest
  else if [";", "\x7b", "\x7d"].any token.isPunct then .ok ⟨{}, rest, none⟩
  else .ok ⟨modifiers, rest, none⟩

theorem attributes_length {modifiers : Modifiers} {line : Nat} {tokens : List Token} {s : Step}
    (h : attributes modifiers line tokens = .ok s) : s.rest.length ≤ tokens.length := by
  have hle := dropNextIf_length (nextIsPunct tokens "!") tokens
  simp only [attributes] at h
  split at h
  · split at h
    · rename_i heq
      obtain rfl := by simpa using h
      exact Nat.le_trans (Nat.le_of_lt (enclosed_length heq)) hle
    · simp at h
  · obtain rfl := by simpa using h
    exact hle

theorem visibility_length {modifiers : Modifiers} {tokens : List Token} {s : Step}
    (h : visibility modifiers tokens = .ok s) : s.rest.length ≤ tokens.length := by
  unfold visibility at h
  split at h
  · split at h
    · split at h
      · rename_i heq
        obtain rfl := by simpa using h
        exact Nat.le_of_lt (enclosed_length heq)
      · simp at h
    · obtain rfl := by simpa using h
      exact Nat.le_refl _
  · obtain rfl := by simpa using h
    exact Nat.le_refl _

theorem foreign_length {modifiers : Modifiers} {line : Nat} {tokens : List Token} {s : Step}
    (h : foreign modifiers line tokens = .ok s) : s.rest.length ≤ tokens.length := by
  have hle := dropNextIf_length (nextIsKind tokens .string) tokens
  simp only [foreign] at h
  split at h
  · split at h
    · rename_i heq
      obtain rfl := by simpa using h
      exact Nat.le_trans (Nat.le_of_lt (enclosed_length heq)) hle
    · simp at h
  · obtain rfl := by simpa using h
    exact hle

theorem function_length {modifiers : Modifiers} {line : Nat} {tokens : List Token} {s : Step}
    (h : function modifiers line tokens = .ok s) : s.rest.length ≤ tokens.length := by
  unfold function at h
  split at h
  · simp at h
  · rename_i heq
    obtain rfl := by simpa using h
    exact Signature.read?_length heq
  · rename_i heq
    obtain rfl := by simpa using h
    exact Signature.read?_length heq

theorem block_length {keyword : Token} {tokens : List Token} {s : Step}
    (h : block keyword tokens = .ok s) : s.rest.length ≤ tokens.length := by
  simp only [block] at h
  split at h
  · simp at h
  · split at h
    · obtain rfl := by simpa using h
      simp only [List.length_drop]
      omega
    · split at h
      · rename_i heq
        obtain rfl := by simpa using h
        have := enclosed_length heq
        simp only [List.length_drop] at this
        simp only
        omega
      · simp at h

theorem macroCall_length {line : Nat} {tokens : List Token} {s : Step}
    (h : macroCall line tokens = .ok s) : s.rest.length ≤ tokens.length := by
  have hle : (dropNextIf (nextIsKind tokens.tail .ident) tokens.tail).length ≤ tokens.length :=
    Nat.le_trans (dropNextIf_length _ _) (by simp)
  simp only [macroCall] at h
  split at h
  · obtain rfl := by simpa using h
    exact hle
  · split at h
    · rename_i heq
      obtain rfl := by simpa using h
      exact Nat.le_trans (Nat.le_of_lt (enclosed_length heq)) hle
    · simp at h

theorem step_length {modifiers : Modifiers} {token : Token} {rest : List Token} {s : Step}
    (h : step modifiers token rest = .ok s) : s.rest.length ≤ rest.length := by
  unfold step at h
  split at h
  · exact attributes_length h
  split at h
  · exact visibility_length h
  split at h
  · exact foreign_length h
  split at h
  · exact function_length h
  split at h
  · exact block_length h
  split at h
  · exact macroCall_length h
  split at h <;> (obtain rfl := by simpa using h) <;> exact Nat.le_refl _

end Item

/-- All that reading a source file brings to light: the findings up to its end or up to the first
error. -/
structure Survey where
  findings : List Finding
  error : Option SourceError
  deriving DecidableEq, Repr

namespace Survey

def ofTokensFrom (modifiers : Modifiers) : List Token → Survey
  | [] => ⟨[], none⟩
  | token :: rest =>
    match h : Item.step modifiers token rest with
    | .error error => ⟨[], some error⟩
    | .ok step =>
      have := Item.step_length h
      let survey := ofTokensFrom step.modifiers step.rest
      ⟨step.finding.toList ++ survey.findings, survey.error⟩
termination_by tokens => tokens.length

def ofTokens (tokens : List Token) : Survey :=
  ofTokensFrom {} tokens

def ofSource (source : String) : Survey :=
  match tokens source with
  | .ok tokens => ofTokens tokens
  | .error error => ⟨[], some error⟩

/-- The exported functions, unless the source is faulty anywhere. -/
def functions (survey : Survey) : Except SourceError (List ExportedFunction) :=
  match survey.error with
  | some error => .error error
  | none => .ok (survey.findings.filterMap Finding.function?)

end Survey

/-- The functions that a source exports. -/
def exportedFunctions (source : String) : Except SourceError (List ExportedFunction) :=
  (Survey.ofSource source).functions

end FfiBindings.Rust
