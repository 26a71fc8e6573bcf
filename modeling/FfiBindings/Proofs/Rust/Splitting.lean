import FfiBindings.Proofs.Rust.Items
import FfiBindings.Proofs.Rust.TypeGrammar

/-!
Cutting tokens at a separator. A token is cut out where the separator stands at depth zero (`cuts`), by a depth that runs
over all four kinds of brackets and may become negative. With what is cut out put back between them, the chunks are the
tokens (`joined_splitTopLevelFrom`), and chunks that are nested and hold no such separator come out of a text in which
they are joined (`splitTopLevel_joined`). What a walk along the tokens and their flattened image cuts is the same
(`splitBeside_topLevelFrom`). `splitTopLevel_lossless` puts this together.
-/

set_option autoImplicit false
set_option relaxedAutoImplicit false

namespace FfiBindings.Rust

variable {separator : String} {depth : Int} {tokens rest marks : List Token} {token : Token} {chunks : List (List Token)}

/-! ### Separators at depth zero -/

/-- Whether the token at a place is the separator, and the depth that the tokens before it leave is zero; the tokens
are met with at the given depth. -/
def isCutAt (separator : String) (depth : Int) (tokens : List Token) (place : Nat) : Bool :=
  tokens[place]?.any (·.isPunct separator) && depth + depthSum Bracket.all (tokens.take place) == 0

def cutsFrom (separator : String) (depth : Int) (tokens : List Token) : List Token :=
  ((List.range tokens.length).filter (isCutAt separator depth tokens)).filterMap (tokens[·]?)

/-- The separators at depth zero, in their order. -/
def cuts (separator : String) (tokens : List Token) : List Token :=
  cutsFrom separator 0 tokens

/-- The chunks with a mark between any two of them. -/
def joined : (chunks : List (List Token)) → (marks : List Token) → List Token
  | [], _ => []
  | chunk :: _, [] => chunk
  | chunk :: chunks, mark :: marks => chunk ++ mark :: joined chunks marks

theorem isCutAt_zero : isCutAt separator depth (token :: rest) 0 = (token.isPunct separator && depth == 0) := by
  simp [isCutAt, depthSum]

theorem isCutAt_succ (place : Nat) :
    isCutAt separator depth (token :: rest) (place + 1) =
      isCutAt separator (depth + Bracket.depthChange Bracket.all token) rest place := by
  simp [isCutAt, depthSum, Int.add_assoc]

theorem cutsFrom_cons :
    cutsFrom separator depth (token :: rest) =
      (if token.isPunct separator && depth == 0 then [token] else []) ++
        cutsFrom separator (depth + Bracket.depthChange Bracket.all token) rest := by
  have hlater : isCutAt separator depth (token :: rest) ∘ Nat.succ =
      isCutAt separator (depth + Bracket.depthChange Bracket.all token) rest := by
    funext place
    exact isCutAt_succ place
  rw [cutsFrom, List.length_cons, List.range_succ_eq_map, List.filter_cons, isCutAt_zero, List.filter_map, hlater]
  split <;> simp [cutsFrom, List.filterMap_map, Function.comp_def]

/-- A text that is neither empty nor a bracket. -/
structure IsSeparator (separator : String) : Prop where
  nonempty : separator ≠ ""
  noBracket : ∀ bracket : Bracket, separator ≠ bracket.opening ∧ separator ≠ bracket.closing

theorem IsSeparator.isPlain (h : IsSeparator separator) (htoken : token.isPunct separator = true) :
    IsPlain Bracket.all token :=
  isPlain_of_isPunct htoken fun bracket _ => h.noBracket bracket

/-- A separator leaves the depth as it is, so it is cut out just where that is zero. -/
theorem splitTopLevelFrom_cons (h : IsSeparator separator) :
    splitTopLevelFrom separator depth (token :: rest) =
      if token.isPunct separator && depth == 0 then
        [] :: splitTopLevelFrom separator (depth + Bracket.depthChange Bracket.all token) rest
      else consToFirst token (splitTopLevelFrom separator (depth + Bracket.depthChange Bracket.all token) rest) := by
  rw [splitTopLevelFrom]
  cases hmark : token.isPunct separator with
  | false => simp
  | true => simp [(h.isPlain hmark).depthChange_eq_zero (List.Subset.refl _)]

/-! ### Nothing is lost -/

theorem length_consToFirst (hchunks : chunks ≠ []) : (consToFirst token chunks).length = chunks.length := by
  cases chunks with
  | nil => exact absurd rfl hchunks
  | cons chunk chunks => rfl

theorem joined_consToFirst (hchunks : chunks ≠ []) :
    joined (consToFirst token chunks) marks = token :: joined chunks marks := by
  cases chunks with
  | nil => exact absurd rfl hchunks
  | cons chunk chunks => cases marks <;> rfl

theorem length_splitTopLevelFrom (h : IsSeparator separator) (depth : Int) (tokens : List Token) :
    (splitTopLevelFrom separator depth tokens).length = (cutsFrom separator depth tokens).length + 1 := by
  induction tokens generalizing depth with
  | nil => rfl
  | cons token rest ih =>
    rw [splitTopLevelFrom_cons h, cutsFrom_cons]
    split
    · simp [ih]
    · rw [length_consToFirst (splitTopLevelFrom_ne_nil separator _ rest), ih, List.nil_append]

/-- The tokens are the chunks with the separators between them that were cut out. -/
theorem joined_splitTopLevelFrom (h : IsSeparator separator) (depth : Int) (tokens : List Token) :
    joined (splitTopLevelFrom separator depth tokens) (cutsFrom separator depth tokens) = tokens := by
  induction tokens generalizing depth with
  | nil => rfl
  | cons token rest ih =>
    rw [splitTopLevelFrom_cons h, cutsFrom_cons]
    split
    · rw [List.singleton_append, joined, ih, List.nil_append]
    · rw [joined_consToFirst (splitTopLevelFrom_ne_nil separator _ rest), List.nil_append, ih]

/-! ### Chunks that are joined -/

theorem passes_of_cutsFrom (hcuts : cutsFrom separator depth tokens = []) :
    Passes Bracket.all (·.isPunct separator) depth tokens := by
  induction tokens generalizing depth with
  | nil => trivial
  | cons token rest ih =>
    rw [cutsFrom_cons, List.append_eq_nil_iff] at hcuts
    obtain ⟨hhere, hlater⟩ := hcuts
    refine ⟨fun hcut => ?_, ih hlater⟩
    obtain ⟨hdepth, hmark⟩ := hcut
    dsimp only at hmark
    simp [hdepth, hmark] at hhere

/-- Nested chunks without a separator at depth zero are cut apart where they are joined. -/
theorem splitTopLevel_joined (h : IsSeparator separator) (hlength : marks.length + 1 = chunks.length)
    (hmarks : ∀ mark ∈ marks, mark.isPunct separator = true)
    (hchunks : ∀ chunk ∈ chunks, Nested Bracket.all anywhere chunk ∧ cuts separator chunk = []) :
    splitTopLevel separator (joined chunks marks) = chunks := by
  induction chunks generalizing marks with
  | nil => exact absurd hlength (Nat.succ_ne_zero _)
  | cons chunk chunks ih =>
    rw [List.forall_mem_cons] at hchunks
    obtain ⟨⟨hnested, hcuts⟩, hrest⟩ := hchunks
    have hpasses := passes_of_cutsFrom hcuts
    cases marks with
    | nil =>
      obtain rfl : chunks = [] := List.length_eq_zero_iff.1 (Nat.succ.inj hlength).symm
      exact splitTopLevel_eq_singleton hpasses
    | cons mark marks =>
      rw [List.forall_mem_cons] at hmarks
      rw [joined, splitTopLevel_of_passes _ hpasses (hnested.depthSum_eq_zero (List.Subset.refl _)) hmarks.1
        (h.isPlain hmarks.1), ih (Nat.succ.inj hlength) hmarks.2 hrest]

/-! ### The walk along the flattened tokens -/

/-- What stands for a bracket and for all that is in brackets. -/
def placeholder : Token := ⟨.punct, "", 0⟩

def flattened (tokens : List Token) : List Token :=
  (topLevel tokens).map (·.getD placeholder)

/-- Cuts tokens where the flat ones beside them are separators. -/
def splitBeside (separator : String) : List (Token × Token) → List (List Token)
  | [] => [[]]
  | (token, flat) :: rest =>
    if flat.isPunct separator then [] :: splitBeside separator rest
    else consToFirst token (splitBeside separator rest)

theorem splitBeside_topLevelFrom (h : IsSeparator separator) (depth : Int) (tokens : List Token) :
    splitBeside separator (tokens.zip ((topLevelFrom depth tokens).map (·.getD placeholder))) =
      splitTopLevelFrom separator depth tokens := by
  induction tokens generalizing depth with
  | nil => rfl
  | cons token rest ih =>
    have hplaceholder : placeholder.isPunct separator = false := by
      simp [placeholder, Token.isPunct, h.nonempty.symm]
    rw [topLevelFrom, List.map_cons, List.zip_cons_cons, splitBeside, ih, splitTopLevelFrom]
    by_cases houter : (Bracket.depthChange Bracket.all token = 0 && depth = 0) = true
    · simp [houter]
    · simp [houter, hplaceholder]

/-- Cutting loses nothing: the chunks and what was cut out from between them, put together again, are the tokens, and
there is one chunk more than there are separators at depth zero. It is what the walk along the flattened tokens comes
to. Nested chunks that hold no separator at depth zero, joined by separators, are cut into just these chunks. -/
theorem splitTopLevel_lossless (h : IsSeparator separator) :
    (∀ tokens, joined (splitTopLevel separator tokens) (cuts separator tokens) = tokens ∧
      (splitTopLevel separator tokens).length = (cuts separator tokens).length + 1 ∧
      splitBeside separator (tokens.zip (flattened tokens)) = splitTopLevel separator tokens) ∧
    ∀ chunks marks, marks.length + 1 = chunks.length → (∀ mark ∈ marks, mark.isPunct separator = true) →
      (∀ chunk ∈ chunks, Nested Bracket.all anywhere chunk ∧ cuts separator chunk = []) →
        splitTopLevel separator (joined chunks marks) = chunks := by
  constructor
  · intro tokens
    exact ⟨joined_splitTopLevelFrom h 0 tokens, length_splitTopLevelFrom h 0 tokens,
      splitBeside_topLevelFrom h 0 tokens⟩
  · intro chunks marks hlength hmarks hchunks
    exact splitTopLevel_joined h hlength hmarks hchunks

namespace Sample

theorem isSeparator_comma : IsSeparator "," :=
  ⟨by decide, fun bracket => by cases bracket <;> decide⟩

/-- Brackets of two kinds make up for one another; behind one that closes nothing no comma stands at depth zero. -/
def stray : List Token :=
  [word "a", mark ",", mark "(", word "b", mark ",", mark "]", mark ",", mark "]", mark ",", word "c"]

/-- A name, a pair and nothing. -/
def threeChunks : List (List Token) :=
  [[word "a"], [mark "(", word "b", mark ",", word "c", mark ")"], []]

theorem nested_threeChunks : ∀ chunk ∈ threeChunks, Nested Bracket.all anywhere chunk := by
  have hpair : Nested Bracket.all anywhere [word "b", mark ",", word "c"] := .of_plain (by decide)
  have hgroup : Nested Bracket.all anywhere (mark "(" :: ([word "b", mark ",", word "c"] ++ mark ")" :: [])) :=
    have hmem : Bracket.paren ∈ Bracket.all := by decide
    .group hmem (by decide) rfl hpair (by decide) .nil
  simpa [threeChunks] using ⟨.of_plain (by decide), hgroup, .nil⟩

end Sample

open Sample

theorem splitTopLevel_lossless_comma :
    IsSeparator "," ∧
      joined (splitTopLevel "," stray) [mark ",", mark ","] = stray ∧ (splitTopLevel "," stray).length = 3 ∧
      (∀ chunk ∈ threeChunks, Nested Bracket.all anywhere chunk ∧ cuts "," chunk = []) ∧
      splitTopLevel "," (joined threeChunks [mark ",", mark ","]) = threeChunks := by
  obtain ⟨hall, hjoined⟩ := splitTopLevel_lossless isSeparator_comma
  obtain ⟨hwhole, hlength, -⟩ := hall stray
  have hcuts : cuts "," stray = [mark ",", mark ","] := by decide
  have hchunks : ∀ chunk ∈ threeChunks, Nested Bracket.all anywhere chunk ∧ cuts "," chunk = [] :=
    fun chunk hchunk => ⟨nested_threeChunks chunk hchunk, by revert chunk; decide⟩
  rw [hcuts] at hwhole hlength
  exact ⟨isSeparator_comma, hwhole, hlength, hchunks, hjoined threeChunks _ rfl (by decide) hchunks⟩

end FfiBindings.Rust
