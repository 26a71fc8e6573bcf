import FfiBindings.Proofs.Rust.LiteralBlind
import FfiBindings.Proofs.Rust.TypeText

/-!
Reading with bare accesses. The reader of this module asks for the token at the cursor, for the last name of a pattern
and for the bracket of a text wherever it relies on an answer, and stops with a mishap where there is none
(`Access.current`, `Access.lastOf`, `Access.bracketOf`); the checks that come before are all it has to avoid that. It
reads just what is read without mishaps (`Access.step_eq`), so in no source does it come to one
(`Access.exportedFunctions_eq`).
-/

set_option autoImplicit false
set_option relaxedAutoImplicit false

namespace FfiBindings.Rust

/-- What can stop a reader that relies on there being a token or a bracket. -/
inductive Mishap where
  | refused (error : SourceError)
  | noToken
  | noChunk
  | noBracket (text : String)
  deriving DecidableEq, Repr

/-- The outcome of a reading that meets with nothing worse than a faulty source. -/
def raised {α : Type} (outcome : Except SourceError α) : Except Mishap α :=
  outcome.mapError .refused

namespace Access

/-! ### Accesses -/

/-- The token at the cursor. -/
def current : List Token → Except Mishap Token
  | [] => .error .noToken
  | token :: _ => .ok token

def lastOf (tokens : List Token) : Except Mishap Token :=
  match tokens.getLast? with
  | some token => .ok token
  | none => .error .noToken

/-- The bracket that a text opens, by the table of brackets. -/
def bracketOf (text : String) : Except Mishap Bracket :=
  match Bracket.all.find? (·.opening == text) with
  | some bracket => .ok bracket
  | none => .error (.noBracket text)

/-- The group that opens at the cursor, with whatever bracket stands there. -/
def group (enclosure : Bracket → Enclosure) (line : Nat) (tokens : List Token) :
    Except Mishap (List Token × List Token) := do
  let opening ← current tokens
  let bracket ← bracketOf opening.text
  match group? bracket tokens.tail with
  | some found => return found
  | none => throw (.refused ⟨.openEnclosure (enclosure bracket), line⟩)

/-! ### Signatures -/

/-- Puts a token behind the last chunk. -/
def push (token : Token) (chunks : List (List Token)) : Except Mishap (List (List Token)) :=
  match chunks.getLast? with
  | some chunk => .ok (chunks.dropLast ++ [chunk ++ [token]])
  | none => .error .noChunk

/-- Cuts the tokens at the separators, with the chunks so far; `flat` are the tokens with nothing inside of brackets. -/
def splitOnto (separator : String) : (chunks : List (List Token)) → List (Token × Option Token) →
    Except Mishap (List (List Token))
  | chunks, [] => .ok chunks
  | chunks, (token, flat) :: rest =>
    if flat.any (·.isPunct separator) then splitOnto separator (chunks ++ [[]]) rest
    else do
      let chunks ← push token chunks
      splitOnto separator chunks rest

def split (separator : String) (tokens : List Token) : Except Mishap (List (List Token)) :=
  splitOnto separator [[]] (tokens.zip (topLevel tokens))

def readParameter (function : String) (position : Nat) (chunk : List Token) : Except Mishap Parameter :=
  match (topLevel chunk).findIdx? (·.any (·.isPunct ":")) with
  | none => do
    let first ← current chunk
    throw (.refused ⟨.untypedParameter position function, first.line⟩)
  | some colon =>
    let type := chunk.drop (colon + 1)
    if type.isEmpty then do
      let first ← current chunk
      throw (.refused ⟨.untypedParameter position function, first.line⟩)
    else
      let names := (chunk.take colon).filter fun token => token.kind == .ident && token.text != "mut"
      if names.isEmpty then return ⟨spell type, ""⟩
      else do
        let name ← lastOf names
        return ⟨spell type, name.text⟩

def readParameters (function : String) : (position : Nat) → List (List Token) → Except Mishap (List Parameter)
  | _, [] => .ok []
  | position, chunk :: chunks =>
    if chunk.isEmpty then readParameters function (position + 1) chunks
    else do
      let parameter ← readParameter function position chunk
      let parameters ← readParameters function (position + 1) chunks
      return parameter :: parameters

def skipBody (function : String) (line : Nat) (tokens : List Token) : Except Mishap (List Token) :=
  if tokens.isEmpty then return []
  else if nextIsPunct tokens ";" then return tokens.tail
  else if nextIsPunct tokens "\x7b" then do
    let (_, after) ← group (fun _ => .body function) line tokens
    return after
  else do
    let token ← current tokens
    throw (.refused ⟨.unexpected token.text function, token.line⟩)

def skipGenerics (line : Nat) (tokens : List Token) : Except Mishap (Bool × List Token) :=
  if nextIsPunct tokens "<" then do
    let (_, after) ← group .group line tokens
    return (true, after)
  else return (false, tokens)

def readNamed (name : String) (line : Nat) (tokens : List Token) : Except Mishap (Signature × List Token) := do
  let (isGeneric, tokens) ← skipGenerics line tokens
  if !nextIsPunct tokens "(" then
    throw (.refused ⟨.noParameters name, line⟩)
  let (inside, tokens) ← group (fun _ => .parameters name) line tokens
  let chunks ← split "," inside
  let parameters ← readParameters name 1 chunks
  let (returnType, tokens) ← raised (readReturnType name line tokens)
  let tokens ← skipBody name line (skipWhereClause tokens)
  return (⟨⟨name, parameters, returnType, line⟩, isGeneric⟩, tokens)

def read? (line : Nat) (tokens : List Token) : Except Mishap (Option Signature × List Token) :=
  if nextIsKind tokens .ident then do
    let name ← current tokens
    let (signature, after) ← readNamed (Signature.plainName name.text) line tokens.tail
    return (some signature, after)
  else return (none, tokens)

/-! ### Items -/

def attributes (modifiers : Modifiers) (line : Nat) (tokens : List Token) : Except Mishap Step :=
  let isInner := nextIsPunct tokens "!"
  let tokens := Item.dropNextIf isInner tokens
  if nextIsPunct tokens "[" then do
    let (inside, after) ← group .group line tokens
    let unmangles := !isInner && inside.any (·.isIdent "no_mangle")
    return ⟨{ modifiers with isUnmangled := modifiers.isUnmangled || unmangles }, after, none⟩
  else return ⟨modifiers, tokens, none⟩

def visibility (modifiers : Modifiers) (tokens : List Token) : Except Mishap Step :=
  if nextIsPunct tokens "(" then do
    let start ← current tokens
    let (_, after) ← group .group start.line tokens
    return ⟨modifiers, after, none⟩
  else return ⟨{ modifiers with isPublic := true }, tokens, none⟩

def foreign (modifiers : Modifiers) (line : Nat) (tokens : List Token) : Except Mishap Step :=
  let tokens := Item.dropNextIf (nextIsKind tokens .string) tokens
  if nextIsPunct tokens "\x7b" then do
    let (_, after) ← group .group line tokens
    return ⟨{}, after, none⟩
  else return ⟨{ modifiers with hasForeignAbi := true }, tokens, none⟩

def function (modifiers : Modifiers) (line : Nat) (tokens : List Token) : Except Mishap Step := do
  let (signature?, after) ← read? line tokens
  let finding := signature?.bind fun signature =>
    if !modifiers.exports then none
    else if signature.isGeneric then some (.genericSkipped signature.function.name line)
    else some (.exported signature.function)
  return ⟨{}, after, finding⟩

def block (keyword : Token) (tokens : List Token) : Except Mishap Step :=
  match Item.headerSize? 0 tokens with
  | none => throw (.refused ⟨.noBlock keyword.text, keyword.line⟩)
  | some size => do
    let tokens := tokens.drop size
    let mark ← current tokens
    if mark.isPunct ";" then return ⟨{}, tokens.tail, none⟩
    else
      let (_, after) ← group .group keyword.line tokens
      return ⟨{}, after, none⟩

/-- Whether a bracket of a macro call stands at the cursor, by the text alone. -/
def opensMacro (tokens : List Token) : Bool :=
  tokens.head?.any fun token => macroBrackets.any (token.text == ·.opening)

def macroCall (line : Nat) (tokens : List Token) : Except Mishap Step :=
  let tokens := Item.dropNextIf (nextIsKind tokens.tail .ident) tokens.tail
  if opensMacro tokens then do
    let (_, after) ← group .group line tokens
    return ⟨{}, after, none⟩
  else return ⟨{}, tokens, none⟩

def step (modifiers : Modifiers) (token : Token) (rest : List Token) : Except Mishap Step :=
  if token.isPunct "#" then attributes modifiers token.line rest
  else if token.isIdent "pub" then visibility modifiers rest
  else if token.isIdent "extern" then foreign modifiers token.line rest
  else if token.isIdent "fn" then function modifiers token.line rest
  else if token.isIdent "impl" || token.isIdent "trait" then block token rest
  else if token.kind == .ident && nextIsPunct rest "!" then macroCall token.line rest
  else if [";", "\x7b", "\x7d"].any token.isPunct then return ⟨{}, rest, none⟩
  else return ⟨modifiers, rest, none⟩

/-! ### Every access is checked before -/

section

variable {α β : Type} {tokens : List Token} {line : Nat}

theorem raised_ok (value : α) : raised (.ok value) = .ok value := rfl

theorem raised_error (error : SourceError) :
    raised (.error error : Except SourceError α) = .error (.refused error) := rfl

theorem raised_bind (outcome : Except SourceError α) (next : α → Except SourceError β) :
    raised (outcome >>= next) = raised outcome >>= fun value => raised (next value) := by
  cases outcome <;> rfl

theorem raised_eq_ok {outcome : Except SourceError α} {value : α} (h : raised outcome = .ok value) :
    outcome = .ok value := by
  cases outcome with
  | error error => exact absurd h (by simp [raised_error])
  | ok found => exact congrArg Except.ok (Except.ok.inj h)

theorem raised_eq_error {outcome : Except SourceError α} {mishap : Mishap} (h : raised outcome = .error mishap) :
    ∃ error, outcome = .error error ∧ mishap = .refused error := by
  cases outcome with
  | error error => exact ⟨error, rfl, (Except.error.inj h).symm⟩
  | ok found => exact absurd h (by simp [raised_ok])

theorem bracketOf_opening (bracket : Bracket) : bracketOf bracket.opening = .ok bracket := by
  cases bracket <;> decide

/-- Where a bracket stands at the cursor, it is its group that is read. -/
theorem group_eq (bracket : Bracket) {token : Token} (h : token.text = bracket.opening)
    (enclosure : Bracket → Enclosure) (line : Nat) (rest : List Token) :
    group enclosure line (token :: rest) = raised (enclosed bracket (enclosure bracket) line (token :: rest)) := by
  simp only [group, current, h, bracketOf_opening, bind, Except.bind, List.tail_cons, enclosed]
  cases group? bracket rest <;> rfl

theorem group_of_next (bracket : Bracket) (h : nextIsPunct tokens bracket.opening = true)
    (enclosure : Bracket → Enclosure) (line : Nat) :
    group enclosure line tokens = raised (enclosed bracket (enclosure bracket) line tokens) := by
  cases tokens with
  | nil => exact absurd h (by simp [nextIsPunct])
  | cons token rest => exact group_eq bracket (Token.isPunct_iff.1 h).2 enclosure line rest

theorem skipBody_eq (function : String) (line : Nat) (tokens : List Token) :
    skipBody function line tokens = raised (Rust.skipBody function line tokens) := by
  cases tokens with
  | nil => rfl
  | cons token rest =>
    simp only [skipBody, Rust.skipBody, List.isEmpty_cons, nextIsPunct, List.head?_cons, Option.any_some]
    by_cases hsemicolon : token.isPunct ";" = true
    · simp only [hsemicolon, if_true]
      rfl
    · by_cases hbrace : token.isPunct "\x7b" = true
      · have hgroup := group_eq .brace (Token.isPunct_iff.1 hbrace).2 (fun _ => .body function) line rest
        simp only [hsemicolon, hbrace, hgroup, Bool.false_eq_true, if_false, if_true]
        cases enclosed .brace (.body function) line (token :: rest) <;> rfl
      · simp only [hsemicolon, hbrace, Bool.false_eq_true, if_false]
        rfl

theorem skipGenerics_eq (line : Nat) (tokens : List Token) :
    skipGenerics line tokens = raised (Signature.skipGenerics line tokens) := by
  unfold skipGenerics Signature.skipGenerics
  by_cases hangle : nextIsPunct tokens "<" = true
  · rw [if_pos hangle, if_pos hangle, group_of_next .angle hangle]
    cases enclosed .angle (.group .angle) line tokens <;> rfl
  · rw [if_neg hangle, if_neg hangle]
    rfl

theorem readParameter_eq (function : String) (position : Nat) (first : Token) (rest : List Token) :
    readParameter function position (first :: rest) = raised (Parameter.read function position first rest) := by
  unfold readParameter Parameter.read
  dsimp only
  cases (topLevel (first :: rest)).findIdx? (·.any (·.isPunct ":")) with
  | none => rfl
  | some colon =>
    dsimp only
    by_cases htype : ((first :: rest).drop (colon + 1)).isEmpty = true
    · rw [if_pos htype, if_pos htype]
      rfl
    · rw [if_neg htype, if_neg htype]
      generalize ((first :: rest).take colon).filter _ = names
      rcases names.eq_nil_or_concat with rfl | ⟨front, last, rfl⟩
      · rfl
      · have hsome : (front ++ [last]).isEmpty = false := by simp
        rw [List.concat_eq_append, hsome, lastOf, List.getLast?_concat]
        rfl

theorem readParameters_eq (function : String) (position : Nat) (chunks : List (List Token)) :
    readParameters function position chunks = raised (Rust.readParameters function position chunks) := by
  induction chunks generalizing position with
  | nil => rfl
  | cons chunk chunks ih =>
    cases chunk with
    | nil => exact ih (position + 1)
    | cons first rest =>
      rw [readParameters, Rust.readParameters, List.isEmpty_cons, if_neg Bool.false_ne_true, readParameter_eq,
        ih, raised_bind]
      cases Parameter.read function position first rest with
      | error error => rfl
      | ok parameter =>
        cases Rust.readParameters function (position + 1) chunks <;> rfl

theorem push_concat (token : Token) (chunks : List (List Token)) (chunk : List Token) :
    push token (chunks ++ [chunk]) = .ok (chunks ++ [chunk ++ [token]]) := by
  rw [push, List.getLast?_concat]
  simp

/-- With chunks that are done and one that is open, the chunks of the rest follow, the first of them behind the open
one. -/
theorem splitOnto_eq (separator : String) (depth : Int) (chunks : List (List Token)) (chunk tokens : List Token) :
    splitOnto separator (chunks ++ [chunk]) (tokens.zip (topLevelFrom depth tokens)) =
      .ok (chunks ++ (splitTopLevelFrom separator depth tokens).modifyHead (chunk ++ ·)) := by
  induction tokens generalizing depth chunks chunk with
  | nil => simp [splitOnto, splitTopLevelFrom]
  | cons token rest ih =>
    obtain ⟨first, more, hsplit, -⟩ :=
      exists_of_splitTopLevelFrom separator (depth + Bracket.depthChange Bracket.all token) rest
    simp only [topLevelFrom, List.zip_cons_cons, splitOnto, splitTopLevelFrom]
    by_cases houter : (Bracket.depthChange Bracket.all token = 0 && depth = 0) = true
    · by_cases hseparator : token.isPunct separator = true
      · simp only [houter, hseparator, if_true, Option.any_some, Bool.and_true]
        rw [ih, hsplit]
        simp
      · simp only [houter, hseparator, if_true, Option.any_some, Bool.false_eq_true, if_false, Bool.and_false]
        rw [push_concat]
        simp only [bind, Except.bind, ih, hsplit, consToFirst, List.modifyHead_cons]
        simp
    · simp only [houter, Option.any_none, Bool.false_eq_true, if_false, Bool.false_and]
      rw [push_concat]
      simp only [bind, Except.bind, ih, hsplit, consToFirst, List.modifyHead_cons]
      simp

theorem split_eq (separator : String) (tokens : List Token) :
    split separator tokens = raised (.ok (splitTopLevel separator tokens)) := by
  obtain ⟨first, chunks, hchunks, -⟩ := exists_of_splitTopLevelFrom separator 0 tokens
  rw [split, topLevel, ← List.nil_append [[]], splitOnto_eq, splitTopLevel, hchunks]
  rfl

theorem readNamed_eq (name : String) (line : Nat) (tokens : List Token) :
    readNamed name line tokens = raised (Signature.readNamed name line tokens) := by
  unfold readNamed Signature.readNamed
  rw [skipGenerics_eq, raised_bind]
  cases Signature.skipGenerics line tokens with
  | error error => rfl
  | ok generics =>
    obtain ⟨isGeneric, opened⟩ := generics
    simp only [raised_ok, bind, Except.bind]
    by_cases hparen : nextIsPunct opened "(" = true
    · simp only [hparen, Bool.not_true, Bool.false_eq_true, if_false, group_of_next .paren hparen]
      cases enclosed .paren (.parameters name) line opened with
      | error error => rfl
      | ok group =>
        obtain ⟨inside, closed⟩ := group
        simp only [raised_ok, split_eq, readParameters_eq, pure, Except.pure]
        cases Rust.readParameters name 1 (splitTopLevel "," inside) with
        | error error => rfl
        | ok parameters =>
          cases readReturnType name line closed with
          | error error => rfl
          | ok returned =>
            obtain ⟨returnType, ended⟩ := returned
            simp only [raised_ok, skipBody_eq]
            cases Rust.skipBody name line (skipWhereClause ended) <;> rfl
    · rw [Bool.not_eq_true] at hparen
      simp only [hparen, Bool.not_false, if_true]
      rfl

theorem read?_eq (line : Nat) (tokens : List Token) : read? line tokens = raised (Signature.read? line tokens) := by
  cases tokens with
  | nil => rfl
  | cons token rest =>
    unfold read? Signature.read?
    by_cases hident : (token.kind == .ident) = true
    · have hnext : nextIsKind (token :: rest) .ident = true := hident
      simp only [hnext, hident, if_true, current, List.tail_cons, readNamed_eq, bind, Except.bind]
      cases Signature.readNamed (Signature.plainName token.text) line rest <;> rfl
    · have hnext : ¬nextIsKind (token :: rest) .ident = true := hident
      simp only [hnext, hident, Bool.false_eq_true, if_false]
      rfl

theorem attributes_eq (modifiers : Modifiers) (line : Nat) (tokens : List Token) :
    attributes modifiers line tokens = raised (Item.attributes modifiers line tokens) := by
  unfold attributes Item.attributes
  dsimp only
  generalize Item.dropNextIf (nextIsPunct tokens "!") tokens = left
  by_cases hsquare : nextIsPunct left "[" = true
  · rw [if_pos hsquare, if_pos hsquare, group_of_next .square hsquare]
    cases enclosed .square (.group .square) line left <;> rfl
  · rw [if_neg hsquare, if_neg hsquare]
    rfl

theorem visibility_eq (modifiers : Modifiers) (tokens : List Token) :
    visibility modifiers tokens = raised (Item.visibility modifiers tokens) := by
  cases tokens with
  | nil => rfl
  | cons token rest =>
    unfold visibility Item.visibility
    by_cases hparen : token.isPunct "(" = true
    · have hnext : nextIsPunct (token :: rest) "(" = true := hparen
      simp only [hnext, hparen, if_true, current, group_of_next .paren hnext, bind, Except.bind]
      cases enclosed .paren (.group .paren) token.line (token :: rest) <;> rfl
    · have hnext : ¬nextIsPunct (token :: rest) "(" = true := hparen
      simp only [hnext, hparen, Bool.false_eq_true, if_false]
      rfl

theorem foreign_eq (modifiers : Modifiers) (line : Nat) (tokens : List Token) :
    foreign modifiers line tokens = raised (Item.foreign modifiers line tokens) := by
  unfold foreign Item.foreign
  dsimp only
  generalize Item.dropNextIf (nextIsKind tokens .string) tokens = left
  by_cases hbrace : nextIsPunct left "\x7b" = true
  · rw [if_pos hbrace, if_pos hbrace, group_of_next .brace hbrace]
    cases enclosed .brace (.group .brace) line left <;> rfl
  · rw [if_neg hbrace, if_neg hbrace]
    rfl

theorem function_eq (modifiers : Modifiers) (line : Nat) (tokens : List Token) :
    function modifiers line tokens = raised (Item.function modifiers line tokens) := by
  unfold function Item.function
  rw [read?_eq]
  cases Signature.read? line tokens with
  | error error => rfl
  | ok found =>
    obtain ⟨_ | signature, after⟩ := found
    · rfl
    · rfl

/-- The header of a block ends where a semicolon or a brace stands. -/
theorem drop_headerSize? {depth : Int} {tokens : List Token} {size : Nat}
    (h : Item.headerSize? depth tokens = some size) :
    ∃ mark rest, tokens.drop size = mark :: rest ∧ (mark.isPunct ";" || mark.isPunct "\x7b") = true := by
  induction tokens generalizing depth size with
  | nil => exact absurd h (by simp [Item.headerSize?])
  | cons token rest ih =>
    unfold Item.headerSize? at h
    split at h
    · rename_i hends
      obtain rfl := Option.some.inj h
      exact ⟨token, rest, rfl, (Bool.and_eq_true_iff.1 hends).2⟩
    · obtain ⟨inner, hinner, rfl⟩ := Option.map_eq_some_iff.1 h
      exact ih hinner

theorem block_eq (keyword : Token) (tokens : List Token) :
    block keyword tokens = raised (Item.block keyword tokens) := by
  unfold block Item.block
  cases hsize : Item.headerSize? 0 tokens with
  | none => rfl
  | some size =>
    obtain ⟨mark, rest, hdrop, hmark⟩ := drop_headerSize? hsize
    dsimp only
    rw [hdrop]
    by_cases hsemicolon : mark.isPunct ";" = true
    · have hnext : nextIsPunct (mark :: rest) ";" = true := hsemicolon
      simp only [current, hsemicolon, hnext, if_true, bind, Except.bind]
      rfl
    · have hnext : ¬nextIsPunct (mark :: rest) ";" = true := hsemicolon
      have hopens : mark.isPunct "\x7b" = true := by simpa [hsemicolon] using hmark
      have hbrace : nextIsPunct (mark :: rest) "\x7b" = true := hopens
      simp only [current, hsemicolon, hnext, if_false, Bool.false_eq_true, group_of_next .brace hbrace, bind,
        Except.bind]
      cases enclosed .brace (.group .brace) keyword.line (mark :: rest) <;> rfl

theorem opensMacro_cons (token : Token) (rest : List Token) :
    opensMacro (token :: rest) = (Bracket.spelled? token).isSome := by
  rw [opensMacro, List.head?_cons, Option.any_some, Bracket.spelled?, Bool.eq_iff_iff, List.any_eq_true,
    List.find?_isSome]

theorem macroCall_eq (line : Nat) (tokens : List Token) :
    macroCall line tokens = raised (Item.macroCallWith Bracket.spelled? line tokens) := by
  unfold macroCall Item.macroCallWith
  dsimp only
  generalize Item.dropNextIf (nextIsKind tokens.tail .ident) tokens.tail = left
  cases left with
  | nil => rfl
  | cons token rest =>
    rw [opensMacro_cons, List.head?_cons, Option.bind_some]
    cases hspelled : Bracket.spelled? token with
    | none => rfl
    | some bracket =>
      have htext : token.text = bracket.opening := by simpa using List.find?_some hspelled
      rw [if_pos Option.isSome_some, group_eq bracket htext]
      dsimp only
      cases enclosed bracket (.group bracket) line (token :: rest) <;> rfl

theorem step_eq (modifiers : Modifiers) (token : Token) (rest : List Token) :
    step modifiers token rest = raised (Item.stepWith Bracket.spelled? modifiers token rest) := by
  unfold Item.stepWith
  split
  · rename_i hcalls
    obtain ⟨⟨hkind, hname⟩, hbang⟩ :
        (token.kind = .ident ∧ token.text ∉ Grammar.reserved) ∧ nextIsPunct rest "!" = true := by
      simpa [Item.callsMacro] using hcalls
    simp only [Grammar.reserved, List.mem_cons, List.not_mem_nil, or_false, not_or] at hname
    rw [← macroCall_eq]
    simp [step, Token.isPunct, Token.isIdent, hkind, hname, hbang]
  · rename_i hcalls
    unfold step Item.step
    by_cases hhash : token.isPunct "#" = true
    · rw [if_pos hhash, if_pos hhash, attributes_eq]
    rw [if_neg hhash, if_neg hhash]
    by_cases hpub : token.isIdent "pub" = true
    · rw [if_pos hpub, if_pos hpub, visibility_eq]
    rw [if_neg hpub, if_neg hpub]
    by_cases hextern : token.isIdent "extern" = true
    · rw [if_pos hextern, if_pos hextern, foreign_eq]
    rw [if_neg hextern, if_neg hextern]
    by_cases hfn : token.isIdent "fn" = true
    · rw [if_pos hfn, if_pos hfn, function_eq]
    rw [if_neg hfn, if_neg hfn]
    by_cases hblock : (token.isIdent "impl" || token.isIdent "trait") = true
    · rw [if_pos hblock, if_pos hblock, block_eq]
    rw [if_neg hblock, if_neg hblock]
    have hmacro : ¬(token.kind == .ident && nextIsPunct rest "!") = true := by
      intro hmacro
      obtain ⟨hkind, hbang⟩ := Bool.and_eq_true_iff.1 hmacro
      simp only [Token.isIdent, hkind, Bool.true_and, Bool.or_eq_true, beq_iff_eq, not_or] at hpub hextern hfn hblock
      refine hcalls ?_
      simp [Item.callsMacro, Grammar.reserved, hkind, hbang, hpub, hextern, hfn, hblock]
    rw [if_neg hmacro, if_neg hmacro]
    split <;> rfl

theorem step_length {modifiers : Modifiers} {token : Token} {rest : List Token} {found : Step}
    (h : step modifiers token rest = .ok found) : found.rest.length < (token :: rest).length := by
  rw [step_eq] at h
  exact Nat.lt_succ_of_le (Item.stepWith_length (raised_eq_ok h))

end

/-! ### The item loop -/

/-- Item after item, each round with the token at the cursor. -/
def functionsFrom (modifiers : Modifiers) : List Token → Except Mishap (List ExportedFunction)
  | [] => .ok []
  | token :: rest =>
    match h : step modifiers token rest with
    | .error mishap => .error mishap
    | .ok found =>
      have hlength := step_length h
      (functionsFrom found.modifiers found.rest).map (found.finding.toList.filterMap Finding.function? ++ ·)
termination_by tokens => tokens.length
decreasing_by
  rw [List.length_cons] at hlength
  omega

/-- The functions that a source exports, or what stops the reader. -/
def exportedFunctions (source : String) : Except Mishap (List ExportedFunction) := do
  let tokens ← raised (tokens source)
  functionsFrom {} tokens

theorem functionsFrom_eq (modifiers : Modifiers) (tokens : List Token) :
    functionsFrom modifiers tokens =
      raised (Survey.ofTokensFromWith Bracket.spelled? modifiers tokens).functions := by
  fun_induction functionsFrom modifiers tokens with
  | case1 modifiers =>
    rw [Survey.ofTokensFromWith]
    rfl
  | case2 modifiers token rest mishap hstep =>
    rw [step_eq] at hstep
    obtain ⟨error, herror, rfl⟩ := raised_eq_error hstep
    rw [Survey.ofTokensFromWith_error herror]
    rfl
  | case3 modifiers token rest found hstep hlength ih =>
    rw [step_eq] at hstep
    rw [Survey.ofTokensFromWith_cons (raised_eq_ok hstep), Survey.functions_after, ih]
    cases (Survey.ofTokensFromWith Bracket.spelled? found.modifiers found.rest).functions <;> rfl

/-- In no source does the reader come to a mishap. -/
theorem exportedFunctions_eq (source : String) : exportedFunctions source = raised (Rust.exportedFunctions source) := by
  rw [exportedFunctions, Rust.exportedFunctions, Survey.ofSource]
  cases htokens : tokens source with
  | error error => rfl
  | ok tokens =>
    have hwritten : ∀ token ∈ tokens, token.text.toList ∈ token.kind.pattern := mem_pattern_of_mem_tokens htokens
    dsimp only
    rw [← Survey.ofTokensByText_eq hwritten, Survey.ofTokensByText, ← functionsFrom_eq]
    rfl

end Access

end FfiBindings.Rust
