import FfiBindings.Proofs.Rust.Lossless
import FfiBindings.Proofs.Rust.Nesting
import FfiBindings.Rust.Item

/-!
Reading by places. A source is read by the kinds of its tokens and by the texts of those that are no literals; what a
literal holds and on which line a token stands is never looked at. So of all the lists of tokens that fill the same
places alike (`Fills`) each is read along the same path (`OnePath`): a group has its inside and its rest at the same
places (`groupFrom?_places`), a signature its parameters and its return type (`readNamed_onePath`), and where reading
fails, it fails at the same place (`Fault`).
-/

set_option autoImplicit false
set_option relaxedAutoImplicit false

namespace FfiBindings.Rust

/-! ### Tokens that are read alike -/

def Token.isLiteral (token : Token) : Bool :=
  token.kind == .string || token.kind == .char

theorem Token.kind_ne_of_isLiteral {token : Token} (h : token.isLiteral = true) : token.kind ≠ .punct := by
  intro hkind
  simp [Token.isLiteral, hkind] at h

/-- Tokens of one kind and, where they are no literals, of one text. The texts of literals are those of their kind, and
the lines are any. -/
structure Token.Alike (token other : Token) : Prop where
  kind : token.kind = other.kind
  text : token.isLiteral = false → token.text = other.text
  written : token.isLiteral = true → token.text.toList ∈ token.kind.pattern
  rewritten : other.isLiteral = true → other.text.toList ∈ other.kind.pattern

namespace Token.Alike

variable {token other : Token}

theorem isLiteral (h : token.Alike other) : token.isLiteral = other.isLiteral := by
  rw [Token.isLiteral, Token.isLiteral, h.kind]

theorem refl_left (h : token.Alike other) : token.Alike token where
  kind := rfl
  text _ := rfl
  written := h.written
  rewritten := h.written

theorem isPunct (h : token.Alike other) (text : String) : other.isPunct text = token.isPunct text := by
  by_cases hkind : token.kind = .punct
  · rw [Token.isPunct, Token.isPunct, ← h.kind, h.text (by simp [Token.isLiteral, hkind])]
  · rw [Token.isPunct, Token.isPunct, ← h.kind, beq_eq_false_iff_ne.2 hkind, Bool.false_and, Bool.false_and]

theorem isIdent (h : token.Alike other) (text : String) : other.isIdent text = token.isIdent text := by
  by_cases hkind : token.kind = .ident
  · rw [Token.isIdent, Token.isIdent, ← h.kind, h.text (by simp [Token.isLiteral, hkind])]
  · rw [Token.isIdent, Token.isIdent, ← h.kind, beq_eq_false_iff_ne.2 hkind, Bool.false_and, Bool.false_and]

theorem text_of_ident (h : token.Alike other) (hkind : token.kind = .ident) : other.text = token.text :=
  (h.text (by simp [Token.isLiteral, hkind])).symm

end Token.Alike

/-- The token at a place, counted from zero; behind the end of the list there is nothing but empty marks. -/
def tokenAt (tokens : List Token) (place : Nat) : Token :=
  tokens.getD place ⟨.punct, "", 0⟩

theorem map_tokenAt (tokens : List Token) : (List.range tokens.length).map (tokenAt tokens) = tokens := by
  apply List.ext_getElem
  · simp
  · intro place hplace hother
    simp [tokenAt, hother]

/-- The tokens of `view` stand at the places of those of `sample`, each alike the one whose place it takes. -/
def Fills (sample view : Nat → Token) : Prop :=
  ∀ place, (sample place).Alike (view place)

theorem fills_of_forall₂ {tokens others : List Token} (h : List.Forall₂ Token.Alike tokens others) :
    Fills (tokenAt tokens) (tokenAt others) := by
  have hempty : Token.Alike ⟨.punct, "", 0⟩ ⟨.punct, "", 0⟩ := ⟨rfl, fun _ => rfl, by simp [Token.isLiteral],
    by simp [Token.isLiteral]⟩
  induction h with
  | nil => exact fun _ => by simpa [tokenAt] using hempty
  | cons hfirst _ ih =>
    intro place
    cases place with
    | zero => simpa [tokenAt] using hfirst
    | succ place => simpa [tokenAt] using ih place

section Tests

variable {sample view : Nat → Token} (h : Fills sample view)
include h

theorem Fills.isPunct (place : Nat) : (view place).isPunct = (sample place).isPunct :=
  funext (h place).isPunct

theorem Fills.isIdent (place : Nat) : (view place).isIdent = (sample place).isIdent :=
  funext (h place).isIdent

theorem Fills.kind (place : Nat) : (view place).kind = (sample place).kind :=
  (h place).kind.symm

theorem Fills.opens (bracket : Bracket) (place : Nat) : bracket.opens (view place) = bracket.opens (sample place) :=
  (h place).isPunct _

theorem Fills.closes (bracket : Bracket) (place : Nat) : bracket.closes (view place) = bracket.closes (sample place) :=
  (h place).isPunct _

theorem Fills.depthChange (among : List Bracket) (place : Nat) :
    Bracket.depthChange among (view place) = Bracket.depthChange among (sample place) := by
  simp only [Bracket.depthChange, h.opens, h.closes]

theorem Fills.nextIsPunct (places : List Nat) (text : String) :
    nextIsPunct (places.map view) text = nextIsPunct (places.map sample) text := by
  cases places <;> simp [Rust.nextIsPunct, h.isPunct]

theorem Fills.nextIsIdent (places : List Nat) (text : String) :
    nextIsIdent (places.map view) text = nextIsIdent (places.map sample) text := by
  cases places <;> simp [Rust.nextIsIdent, h.isIdent]

theorem Fills.nextIsKind (places : List Nat) (kind : Token.Kind) :
    nextIsKind (places.map view) kind = nextIsKind (places.map sample) kind := by
  cases places <;> simp [Rust.nextIsKind, h.kind]

theorem Fills.endsReturnType (place : Nat) : endsReturnType (view place) = endsReturnType (sample place) := by
  simp only [Rust.endsReturnType, h.isPunct, h.isIdent]

theorem Fills.returnTypeSize (depth : Int) (places : List Nat) :
    returnTypeSize depth (places.map view) = returnTypeSize depth (places.map sample) := by
  induction places generalizing depth with
  | nil => rfl
  | cons place places ih =>
    simp only [List.map_cons, Rust.returnTypeSize, h.endsReturnType, h.depthChange, ih]

theorem Fills.whereClauseSize (depth : Int) (places : List Nat) :
    whereClauseSize depth (places.map view) = whereClauseSize depth (places.map sample) := by
  induction places generalizing depth with
  | nil => rfl
  | cons place places ih => simp only [List.map_cons, Rust.whereClauseSize, h.isPunct, h.depthChange, ih]

theorem Fills.headerSize? (depth : Int) (places : List Nat) :
    Item.headerSize? depth (places.map view) = Item.headerSize? depth (places.map sample) := by
  induction places generalizing depth with
  | nil => rfl
  | cons place places ih => simp only [List.map_cons, Item.headerSize?, h.isPunct, h.depthChange, ih]

/-- The first mark outside all brackets stands at the same place. -/
theorem Fills.findIdx?_topLevelFrom (mark : String) (depth : Int) (places : List Nat) :
    (topLevelFrom depth (places.map view)).findIdx? (·.any (·.isPunct mark)) =
      (topLevelFrom depth (places.map sample)).findIdx? (·.any (·.isPunct mark)) := by
  induction places generalizing depth with
  | nil => rfl
  | cons place places ih =>
    simp only [List.map_cons, topLevelFrom, List.findIdx?_cons, h.depthChange, ih]
    split <;> simp [h.isPunct]

/-- Names are no literals, so the names among the tokens are the same. -/
theorem Fills.map_text_filter (accepts : String → Bool) (places : List Nat) :
    ((places.map view).filter fun token => token.kind == .ident && accepts token.text).map Token.text =
      ((places.map sample).filter fun token => token.kind == .ident && accepts token.text).map Token.text := by
  induction places with
  | nil => rfl
  | cons place places ih =>
    by_cases hkind : (sample place).kind = .ident
    · simp only [List.map_cons, List.filter_cons, h.kind, (h place).text_of_ident hkind]
      split <;> simp [ih, (h place).text_of_ident hkind]
    · simpa [List.filter_cons, h.kind, hkind] using ih

end Tests

/-! ### Where a reading fails and what it finds -/

/-- A place at which reading fails, and what is wrong there; of `unexpected` this is the token of the place itself. -/
inductive Fault where
  | flawed (flaw : Flaw) (place : Nat)
  | unexpected (function : String) (place : Nat)

/-- The error that a fault is for the tokens that fill the places. -/
def Fault.error (view : Nat → Token) : Fault → SourceError
  | .flawed flaw place => ⟨flaw, (view place).line⟩
  | .unexpected function place => ⟨.unexpected (view place).text function, (view place).line⟩

/-- The type that the tokens write at the given places. -/
def spellAt (view : Nat → Token) (places : List Nat) : String :=
  spell (places.map view)

def returnTypeAt (view : Nat → Token) (returned : Option (List Nat)) : String :=
  returned.elim "void" (spellAt view)

/-- Where a parameter is written. Its name is no literal, so it is told by itself. -/
structure ParameterSite where
  type : List Nat
  name : String

def ParameterSite.parameter (view : Nat → Token) (site : ParameterSite) : Parameter :=
  ⟨spellAt view site.type, site.name⟩

/-- Where a function is written, from the place of its keyword on. -/
structure FunctionSite where
  name : String
  parameters : List ParameterSite
  returned : Option (List Nat)
  keyword : Nat

namespace FunctionSite

/-- The places of each of its types. -/
def types (site : FunctionSite) : List (List Nat) :=
  site.parameters.map ParameterSite.type ++ site.returned.toList

/-- The function that the tokens write there. -/
def function (view : Nat → Token) (site : FunctionSite) : ExportedFunction where
  name := site.name
  parameters := site.parameters.map (ParameterSite.parameter view)
  returnType := returnTypeAt view site.returned
  line := (view site.keyword).line

/-- The names of the parameters are the same for all tokens. -/
theorem map_name_parameters (view : Nat → Token) (site : FunctionSite) :
    (site.function view).parameters.map Parameter.name = site.parameters.map ParameterSite.name :=
  List.map_map

end FunctionSite

variable {α β γ : Type} {sample : Nat → Token}

/-- What a reading comes to for the tokens that fill the places. -/
def settle (fill : (Nat → Token) → α → β) (view : Nat → Token) : Except Fault α → Except SourceError β
  | .ok found => .ok (fill view found)
  | .error fault => .error (fault.error view)

/-- A reading that fails at one place for all that fill the places alike, or finds the same places for all of them;
`fill` says what the tokens of the found places make. -/
def OnePath (sample : Nat → Token) (fill : (Nat → Token) → α → β)
    (read : (Nat → Token) → Except SourceError β) : Prop :=
  ∃ outcome : Except Fault α, ∀ view, Fills sample view → read view = settle fill view outcome

namespace OnePath

variable {fill : (Nat → Token) → α → β} {read : (Nat → Token) → Except SourceError β}

theorem ok (found : α) (h : ∀ view, Fills sample view → read view = .ok (fill view found)) :
    OnePath sample fill read :=
  ⟨.ok found, h⟩

theorem error (fault : Fault) (h : ∀ view, Fills sample view → read view = .error (fault.error view)) :
    OnePath sample fill read :=
  ⟨.error fault, h⟩

theorem congr {other : (Nat → Token) → Except SourceError β} (h : OnePath sample fill read)
    (heq : ∀ view, Fills sample view → other view = read view) : OnePath sample fill other := by
  obtain ⟨outcome, houtcome⟩ := h
  exact ⟨outcome, fun view hview => (heq view hview).trans (houtcome view hview)⟩

/-- A test that has one outcome for all that fill the places alike. -/
theorem test {other : (Nat → Token) → Except SourceError β} {condition : (Nat → Token) → Bool} (outcome : Bool)
    (hcondition : ∀ view, Fills sample view → condition view = outcome)
    (hyes : outcome = true → OnePath sample fill read) (hno : outcome = false → OnePath sample fill other) :
    OnePath sample fill fun view => if condition view = true then read view else other view := by
  cases outcome with
  | true => exact (hyes rfl).congr fun view hview => if_pos (hcondition view hview)
  | false => exact (hno rfl).congr fun view hview => if_neg (by simp [hcondition view hview])

theorem bind {δ : Type} {fillLater : (Nat → Token) → γ → δ} {next : (Nat → Token) → β → Except SourceError δ}
    (h : OnePath sample fill read)
    (hnext : ∀ found, OnePath sample fillLater fun view => next view (fill view found)) :
    OnePath sample fillLater fun view => read view >>= next view := by
  obtain ⟨outcome, houtcome⟩ := h
  cases outcome with
  | error fault => exact .error fault fun view hview => by simp [houtcome view hview, settle, Bind.bind, Except.bind]
  | ok found =>
    obtain ⟨later, hlater⟩ := hnext found
    refine ⟨later, fun view hview => ?_⟩
    rw [← hlater view hview]
    simp [houtcome view hview, settle, Bind.bind, Except.bind]

/-- A step that cannot fail. -/
theorem map {δ : Type} {fillLater : (Nat → Token) → γ → δ} (h : OnePath sample fill read)
    (next : (Nat → Token) → β → δ) (found : α → γ)
    (hnext : ∀ view, Fills sample view → ∀ inner, next view (fill view inner) = fillLater view (found inner)) :
    OnePath sample fillLater fun view => (read view).map (next view) := by
  obtain ⟨outcome, houtcome⟩ := h
  cases outcome with
  | error fault => exact .error fault fun view hview => by simp [houtcome view hview, settle, Except.map]
  | ok inner =>
    refine .ok (found inner) fun view hview => ?_
    simp [houtcome view hview, settle, Except.map, hnext view hview]

end OnePath

/-! ### Groups and chunks -/

def fillTokens (view : Nat → Token) (places : List Nat) : List Token :=
  places.map view

/-- What is found at some places, and the tokens that are left. -/
def withRest (fill : (Nat → Token) → α → β) (view : Nat → Token) (found : α × List Nat) : β × List Token :=
  (fill view found.1, found.2.map view)

theorem groupFrom?_places (sample : Nat → Token) (bracket : Bracket) (depth : Nat) (places : List Nat) :
    ∃ cut : Option (List Nat × List Nat), ∀ view, Fills sample view →
      groupFrom? bracket depth (places.map view) = cut.map (withRest fillTokens view) := by
  induction places generalizing depth with
  | nil => exact ⟨none, fun _ _ => rfl⟩
  | cons place places ih =>
    have hinner (depth : Nat) : ∃ cut : Option (List Nat × List Nat), ∀ view, Fills sample view →
        (groupFrom? bracket depth (places.map view)).map (fun found => (view place :: found.1, found.2)) =
          cut.map (withRest fillTokens view) := by
      obtain ⟨cut, hcut⟩ := ih depth
      refine ⟨cut.map fun found => (place :: found.1, found.2), fun view hview => ?_⟩
      rw [hcut view hview, Option.map_map, Option.map_map]
      rfl
    by_cases hopens : bracket.opens (sample place) = true
    · obtain ⟨cut, hcut⟩ := hinner (depth + 1)
      refine ⟨cut, fun view hview => ?_⟩
      rw [List.map_cons, groupFrom?, if_pos (by rw [hview.opens, hopens])]
      exact hcut view hview
    · by_cases hcloses : bracket.closes (sample place) = true
      · by_cases hdepth : depth = 0
        · refine ⟨some ([], places), fun view hview => ?_⟩
          rw [List.map_cons, groupFrom?, if_neg (by rwa [hview.opens]), if_pos (by rw [hview.closes, hcloses]),
            if_pos hdepth]
          rfl
        · obtain ⟨cut, hcut⟩ := hinner (depth - 1)
          refine ⟨cut, fun view hview => ?_⟩
          rw [List.map_cons, groupFrom?, if_neg (by rwa [hview.opens]), if_pos (by rw [hview.closes, hcloses]),
            if_neg hdepth]
          exact hcut view hview
      · obtain ⟨cut, hcut⟩ := hinner depth
        refine ⟨cut, fun view hview => ?_⟩
        rw [List.map_cons, groupFrom?, if_neg (by rwa [hview.opens]), if_neg (by rwa [hview.closes])]
        exact hcut view hview

theorem enclosed_onePath (bracket : Bracket) (enclosure : Enclosure) (start : Nat) (places : List Nat) :
    OnePath sample (withRest fillTokens) fun view =>
      enclosed bracket enclosure (view start).line (places.map view) := by
  obtain ⟨cut, hcut⟩ := groupFrom?_places sample bracket 0 places.tail
  have hgroup (view : Nat → Token) (hview : Fills sample view) :
      group? bracket (places.map view).tail = cut.map (withRest fillTokens view) := by
    rw [← List.map_tail]
    exact hcut view hview
  cases cut with
  | none =>
    refine .error (.flawed (.openEnclosure enclosure) start) fun view hview => ?_
    simp [enclosed, hgroup view hview, Fault.error]
  | some cut => exact .ok cut fun view hview => by simp [enclosed, hgroup view hview, withRest, fillTokens]

theorem splitTopLevelFrom_places (sample : Nat → Token) (separator : String) (depth : Int) (places : List Nat) :
    ∃ chunks : List (List Nat), ∀ view, Fills sample view →
      splitTopLevelFrom separator depth (places.map view) = chunks.map (List.map view) := by
  induction places generalizing depth with
  | nil => exact ⟨[[]], fun _ _ => rfl⟩
  | cons place places ih =>
    obtain ⟨chunks, hchunks⟩ := ih (depth + Bracket.depthChange Bracket.all (sample place))
    by_cases hcuts : (decide (Bracket.depthChange Bracket.all (sample place) = 0) && decide (depth = 0) &&
        (sample place).isPunct separator) = true
    · refine ⟨[] :: chunks, fun view hview => ?_⟩
      simp only [List.map_cons, splitTopLevelFrom, hview.depthChange, hview.isPunct, hcuts, if_true, hchunks view hview,
        List.map_nil]
    · cases chunks with
      | nil =>
        refine ⟨[[place]], fun view hview => ?_⟩
        simp only [List.map_cons, splitTopLevelFrom, hview.depthChange, hview.isPunct, hcuts, hchunks view hview]
        rfl
      | cons chunk chunks =>
        refine ⟨(place :: chunk) :: chunks, fun view hview => ?_⟩
        simp only [List.map_cons, splitTopLevelFrom, hview.depthChange, hview.isPunct, hcuts, hchunks view hview]
        rfl

/-! ### Signatures -/

theorem Parameter.read_onePath (function : String) (position first : Nat) (places : List Nat) :
    OnePath sample ParameterSite.parameter fun view =>
      Parameter.read function position (view first) (places.map view) := by
  have hcolon (view : Nat → Token) (hview : Fills sample view) :
      (topLevel ((first :: places).map view)).findIdx? (·.any (·.isPunct ":")) =
        (topLevel ((first :: places).map sample)).findIdx? (·.any (·.isPunct ":")) :=
    hview.findIdx?_topLevelFrom ":" 0 (first :: places)
  cases hfound : (topLevel ((first :: places).map sample)).findIdx? (·.any (·.isPunct ":")) with
  | none =>
    refine .error (.flawed (.untypedParameter position function) first) fun view hview => ?_
    simp only [Parameter.read, ← List.map_cons, hcolon view hview, hfound]
    rfl
  | some colon =>
    by_cases hempty : ((first :: places).drop (colon + 1)).isEmpty = true
    · refine .error (.flawed (.untypedParameter position function) first) fun view hview => ?_
      simp only [Parameter.read, ← List.map_cons, hcolon view hview, hfound, ← List.map_drop, List.isEmpty_map, hempty,
        if_true]
      rfl
    · let names := (((first :: places).take colon).map sample).filter fun token =>
        token.kind == .ident && token.text != "mut"
      refine .ok ⟨(first :: places).drop (colon + 1), (names.map Token.text).getLast?.getD ""⟩ fun view hview => ?_
      simp only [Parameter.read, ← List.map_cons, hcolon view hview, hfound, ← List.map_drop, List.isEmpty_map, hempty,
        ← List.map_take, ← List.getLast?_map, hview.map_text_filter (· != "mut")]
      rfl

theorem readParameters_onePath (function : String) (position : Nat) (chunks : List (List Nat)) :
    OnePath sample (fun view => List.map (ParameterSite.parameter view)) fun view =>
      readParameters function position (chunks.map (List.map view)) := by
  induction chunks generalizing position with
  | nil => exact .ok [] fun _ _ => rfl
  | cons chunk chunks ih =>
    cases chunk with
    | nil => exact ih (position + 1)
    | cons first places =>
      refine (Parameter.read_onePath function position first places).bind fun parameter => ?_
      exact (ih (position + 1)).map (fun view later => parameter.parameter view :: later)
        (fun later => parameter :: later) fun _ _ _ => rfl

theorem readReturnType_onePath (function : String) (keyword : Nat) (places : List Nat) :
    OnePath sample (withRest returnTypeAt) fun view =>
      readReturnType function (view keyword).line (places.map view) := by
  refine .test _ (fun view hview => hview.nextIsPunct places "->") (fun _ => ?_)
    fun _ => .ok (none, places) fun _ _ => rfl
  let size := returnTypeSize 0 (places.tail.map sample)
  have hsize (view : Nat → Token) (hview : Fills sample view) : returnTypeSize 0 (places.tail.map view) = size :=
    hview.returnTypeSize 0 places.tail
  by_cases hempty : size = 0
  · refine .error (.flawed (.noReturnType function) keyword) fun view hview => ?_
    simp only [← List.map_tail, hsize view hview, hempty, if_true]
    rfl
  · refine .ok (some (places.tail.take size), places.tail.drop size) fun view hview => ?_
    simp only [← List.map_tail, hsize view hview, hempty, if_false, ← List.map_take, ← List.map_drop]
    rfl

theorem skipWhereClause_places (sample : Nat → Token) (places : List Nat) :
    ∃ after : List Nat, ∀ view, Fills sample view → skipWhereClause (places.map view) = after.map view := by
  by_cases hclause : nextIsIdent (places.map sample) "where" = true
  · refine ⟨places.drop (whereClauseSize 0 (places.map sample)), fun view hview => ?_⟩
    rw [skipWhereClause, hview.nextIsIdent, if_pos hclause, hview.whereClauseSize, List.map_drop]
  · refine ⟨places, fun view hview => ?_⟩
    rw [skipWhereClause, hview.nextIsIdent, if_neg hclause]

theorem skipBody_onePath (function : String) (keyword : Nat) (places : List Nat) :
    OnePath sample fillTokens fun view => skipBody function (view keyword).line (places.map view) := by
  cases places with
  | nil => exact .ok [] fun _ _ => rfl
  | cons place places =>
    refine .test _ (fun view hview => congrFun (hview.isPunct place) ";")
      (fun _ => .ok places fun _ _ => rfl) fun _ => ?_
    refine .test _ (fun view hview => congrFun (hview.isPunct place) "\x7b") (fun _ => ?_)
      fun _ => .error (.unexpected function place) fun _ _ => rfl
    refine .congr (.map (enclosed_onePath .brace (.body function) keyword (place :: places)) (fun _ => Prod.snd)
      Prod.snd fun _ _ _ => rfl) fun view _ => ?_
    rw [List.map_cons]
    cases enclosed .brace (.body function) (view keyword).line (view place :: places.map view) <;> rfl

/-- Where a signature is written. -/
structure SignatureSite where
  function : FunctionSite
  isGeneric : Bool

def SignatureSite.signature (view : Nat → Token) (site : SignatureSite) : Signature :=
  ⟨site.function.function view, site.isGeneric⟩

namespace Signature

theorem skipGenerics_onePath (keyword : Nat) (places : List Nat) :
    OnePath sample (withRest fun _ (isGeneric : Bool) => isGeneric) fun view =>
      skipGenerics (view keyword).line (places.map view) := by
  refine .test _ (fun view hview => hview.nextIsPunct places "<") (fun _ => ?_)
    fun _ => .ok (false, places) fun _ _ => rfl
  refine .congr (.map (enclosed_onePath .angle (.group .angle) keyword places) (fun _ cut => (true, cut.2))
    (fun cut => (true, cut.2)) fun _ _ _ => rfl) fun view _ => ?_
  cases enclosed .angle (.group .angle) (view keyword).line (places.map view) <;> rfl

theorem readNamed_onePath (name : String) (keyword : Nat) (places : List Nat) :
    OnePath sample (withRest SignatureSite.signature) fun view =>
      readNamed name (view keyword).line (places.map view) := by
  refine (skipGenerics_onePath keyword places).bind fun (isGeneric, opened) => ?_
  refine .test _ (fun view hview => congrArg not (hview.nextIsPunct opened "(")) (fun _ => ?_) fun _ => ?_
  · exact .error (.flawed (.noParameters name) keyword) fun _ _ => rfl
  refine (enclosed_onePath .paren (.parameters name) keyword opened).bind fun (inside, closed) => ?_
  obtain ⟨chunks, hchunks⟩ := splitTopLevelFrom_places sample "," 0 inside
  have hparameters : OnePath sample (fun view => List.map (ParameterSite.parameter view)) fun view =>
      readParameters name 1 (splitTopLevel "," (inside.map view)) :=
    (readParameters_onePath name 1 chunks).congr fun view hview => by rw [splitTopLevel, hchunks view hview]
  refine hparameters.bind fun parameters => ?_
  refine (readReturnType_onePath name keyword closed).bind fun (returned, ended) => ?_
  obtain ⟨left, hleft⟩ := skipWhereClause_places sample ended
  refine .congr (.map (skipBody_onePath name keyword left)
    (fun view after => (⟨⟨name, parameters.map (ParameterSite.parameter view), returnTypeAt view returned,
      (view keyword).line⟩, isGeneric⟩, after))
    (fun after => (⟨⟨name, parameters, returned, keyword⟩, isGeneric⟩, after)) fun _ _ _ => rfl) fun view hview => ?_
  dsimp only [withRest]
  rw [hleft view hview]
  cases skipBody name (view keyword).line (left.map view) <;> rfl

theorem read?_onePath (keyword : Nat) (places : List Nat) :
    OnePath sample (withRest fun view => Option.map (SignatureSite.signature view)) fun view =>
      read? (view keyword).line (places.map view) := by
  cases places with
  | nil => exact .ok (none, []) fun _ _ => rfl
  | cons place places =>
    refine .test _ (fun view hview => congrArg (· == .ident) (hview.kind place)) (fun hkind => ?_)
      fun _ => .ok (none, place :: places) fun _ _ => rfl
    refine .congr (.map (readNamed_onePath (plainName (sample place).text) keyword places)
      (fun _ read => (some read.1, read.2)) (fun found => (some found.1, found.2)) fun _ _ _ => rfl)
      fun view hview => ?_
    rw [(hview place).text_of_ident (eq_of_beq hkind)]
    cases readNamed (plainName (sample place).text) (view keyword).line (places.map view) <;> rfl

end Signature

/-! ### Steps -/

/-- Where a finding is written. -/
inductive FindingSite where
  | exported (function : FunctionSite)
  | genericSkipped (function : String) (keyword : Nat)

def FindingSite.finding (view : Nat → Token) : FindingSite → Finding
  | .exported site => .exported (site.function view)
  | .genericSkipped function keyword => .genericSkipped function (view keyword).line

def FindingSite.function? : FindingSite → Option FunctionSite
  | .exported site => some site
  | .genericSkipped _ _ => none

/-- A step whose rest is left at some places. -/
structure StepSite where
  modifiers : Modifiers
  rest : List Nat
  finding : Option FindingSite := none

def StepSite.step (view : Nat → Token) (site : StepSite) : Step :=
  ⟨site.modifiers, site.rest.map view, site.finding.map (FindingSite.finding view)⟩

namespace Item

theorem dropNextIf_map (condition : Bool) (view : Nat → Token) (places : List Nat) :
    dropNextIf condition (places.map view) = (if condition then places.tail else places).map view := by
  cases condition with
  | true => exact List.map_tail.symm
  | false => rfl

/-- A group that is passed over whole. -/
theorem passed_onePath (modifiers : Modifiers) (bracket : Bracket) (start : Nat) (places : List Nat) :
    OnePath sample StepSite.step fun view =>
      (enclosed bracket (.group bracket) (view start).line (places.map view)).map fun cut =>
        ⟨modifiers, cut.2, none⟩ :=
  OnePath.map (enclosed_onePath bracket (.group bracket) start places) (fun _ cut => (⟨modifiers, cut.2, none⟩ : Step))
    (fun cut => (⟨modifiers, cut.2, none⟩ : StepSite)) fun _ _ _ => rfl

theorem attributes_onePath (modifiers : Modifiers) (start : Nat) (places : List Nat) :
    OnePath sample StepSite.step fun view => attributes modifiers (view start).line (places.map view) := by
  let isInner := nextIsPunct (places.map sample) "!"
  let left := if isInner then places.tail else places
  have hleft (view : Nat → Token) : dropNextIf isInner (places.map view) = left.map view :=
    dropNextIf_map isInner view places
  have hunmangles (view : Nat → Token) (hview : Fills sample view) (inside : List Nat) :
      (inside.map view).any (·.isIdent "no_mangle") = (inside.map sample).any (·.isIdent "no_mangle") := by
    simp only [List.any_map, Function.comp_def, hview.isIdent]
  have hread : OnePath sample StepSite.step fun view =>
      if nextIsPunct (left.map view) "[" = true then
        (enclosed .square (.group .square) (view start).line (left.map view)).map fun cut =>
          ⟨{ modifiers with isUnmangled :=
            modifiers.isUnmangled || (!isInner && cut.1.any (·.isIdent "no_mangle")) }, cut.2, none⟩
      else .ok ⟨modifiers, left.map view, none⟩ := by
    refine .test _ (fun view hview => hview.nextIsPunct left "[") (fun _ => ?_)
      fun _ => .ok ⟨modifiers, left, none⟩ fun _ _ => rfl
    refine .map (enclosed_onePath .square (.group .square) start left) _ (fun cut =>
      ⟨{ modifiers with isUnmangled := modifiers.isUnmangled ||
        (!isInner && (cut.1.map sample).any (·.isIdent "no_mangle")) }, cut.2, none⟩) fun view hview cut => ?_
    simp only [withRest, fillTokens, hunmangles view hview, StepSite.step, Option.map_none]
  refine hread.congr fun view hview => ?_
  have hinner : nextIsPunct (places.map view) "!" = isInner := hview.nextIsPunct places "!"
  simp only [attributes, hinner, hleft]
  split
  · cases enclosed .square (.group .square) (view start).line (left.map view) <;> rfl
  · rfl

theorem visibility_onePath (modifiers : Modifiers) (places : List Nat) :
    OnePath sample StepSite.step fun view => visibility modifiers (places.map view) := by
  cases places with
  | nil => exact .ok ⟨{ modifiers with isPublic := true }, [], none⟩ fun _ _ => rfl
  | cons place places =>
    refine .test _ (fun view hview => congrFun (hview.isPunct place) "(") (fun _ => ?_)
      fun _ => .ok ⟨{ modifiers with isPublic := true }, place :: places, none⟩ fun _ _ => rfl
    refine (passed_onePath modifiers .paren place (place :: places)).congr fun view _ => ?_
    rw [List.map_cons]
    cases enclosed .paren (.group .paren) (view place).line (view place :: places.map view) <;> rfl

theorem foreign_onePath (modifiers : Modifiers) (start : Nat) (places : List Nat) :
    OnePath sample StepSite.step fun view => foreign modifiers (view start).line (places.map view) := by
  let left := if nextIsKind (places.map sample) .string then places.tail else places
  have hread : OnePath sample StepSite.step fun view =>
      if nextIsPunct (left.map view) "\x7b" = true then
        (enclosed .brace (.group .brace) (view start).line (left.map view)).map fun cut => ⟨{}, cut.2, none⟩
      else .ok ⟨{ modifiers with hasForeignAbi := true }, left.map view, none⟩ :=
    .test _ (fun view hview => hview.nextIsPunct left "\x7b") (fun _ => passed_onePath {} .brace start left)
      fun _ => .ok ⟨{ modifiers with hasForeignAbi := true }, left, none⟩ fun _ _ => rfl
  have hleft (view : Nat → Token) (hview : Fills sample view) :
      dropNextIf (nextIsKind (places.map view) .string) (places.map view) = left.map view := by
    rw [hview.nextIsKind, dropNextIf_map]
  refine hread.congr fun view hview => ?_
  simp only [foreign, hleft view hview]
  split
  · cases enclosed .brace (.group .brace) (view start).line (left.map view) <;> rfl
  · rfl

theorem function_onePath (modifiers : Modifiers) (keyword : Nat) (places : List Nat) :
    OnePath sample StepSite.step fun view => function modifiers (view keyword).line (places.map view) := by
  have hread : OnePath sample StepSite.step fun view =>
      (Signature.read? (view keyword).line (places.map view)).map fun (signature, after) =>
        ⟨{}, after, signature.bind fun signature =>
          if !modifiers.exports then none
          else if signature.isGeneric then some (.genericSkipped signature.function.name (view keyword).line)
          else some (.exported signature.function)⟩ := by
    refine .map (Signature.read?_onePath keyword places) _ (fun (site, after) =>
      ⟨{}, after, site.bind fun site =>
        if !modifiers.exports then none
        else if site.isGeneric then some (.genericSkipped site.function.name keyword)
        else some (.exported site.function)⟩) fun view _ (site, after) => ?_
    cases site with
    | none => rfl
    | some site =>
      obtain ⟨function, isGeneric⟩ := site
      cases modifiers.exports <;> cases isGeneric <;> rfl
  refine hread.congr fun view _ => ?_
  rw [function]
  rcases Signature.read? (view keyword).line (places.map view) with error | ⟨_ | signature, after⟩ <;> rfl

theorem block_onePath (keyword : Nat) (places : List Nat) (hkind : (sample keyword).kind = .ident) :
    OnePath sample StepSite.step fun view => block (view keyword) (places.map view) := by
  cases hsize : headerSize? 0 (places.map sample) with
  | none =>
    refine .error (.flawed (.noBlock (sample keyword).text) keyword) fun view hview => ?_
    simp only [block, hview.headerSize?, hsize, (hview keyword).text_of_ident hkind]
    rfl
  | some size =>
    have hread : OnePath sample StepSite.step fun view =>
        if nextIsPunct ((places.drop size).map view) ";" = true then
          .ok ⟨{}, ((places.drop size).map view).tail, none⟩
        else
          (enclosed .brace (.group .brace) (view keyword).line ((places.drop size).map view)).map fun cut =>
            ⟨{}, cut.2, none⟩ :=
      .test _ (fun view hview => hview.nextIsPunct (places.drop size) ";")
        (fun _ => .ok ⟨{}, (places.drop size).tail, none⟩ fun _ _ => by rw [← List.map_tail]; rfl)
        fun _ => passed_onePath {} .brace keyword (places.drop size)
    refine hread.congr fun view hview => ?_
    simp only [block, hview.headerSize?, hsize, ← List.map_drop]
    split
    · rfl
    · cases enclosed .brace (.group .brace) (view keyword).line ((places.drop size).map view) <;> rfl

end Item

end FfiBindings.Rust
