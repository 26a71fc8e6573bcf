import FfiBindings.Proofs.Rust.Items

/-!
Functions that are cut off. Brackets that are nested leave the count of a bracket where it was, so in no part of what a
group encloses is the group closed (`groupFrom?_of_prefix`). A function of which the tokens end behind its name and in
front of the end of its parameters, or inside of its body, is therefore refused where the group is open, with the line
of its keyword (`Function.Truncated.ofTokensFrom`), whatever comes before it (`functions_truncated`).
-/

set_option autoImplicit false
set_option relaxedAutoImplicit false

namespace FfiBindings.Rust

/-! ### Groups that stay open -/

/-- Tokens behind a group that is closed leave it where it ends. -/
theorem groupFrom?_append {bracket : Bracket} {depth : Nat} {tokens inside after : List Token}
    (h : groupFrom? bracket depth tokens = some (inside, after)) (rest : List Token) :
    groupFrom? bracket depth (tokens ++ rest) = some (inside, after ++ rest) := by
  induction tokens generalizing depth inside with
  | nil => exact absurd h (by simp [groupFrom?])
  | cons token tokens ih =>
    have hinner {deeper : Nat}
        (h : (groupFrom? bracket deeper tokens).map (fun found => (token :: found.1, found.2)) = some (inside, after)) :
        (groupFrom? bracket deeper (tokens ++ rest)).map (fun found => (token :: found.1, found.2)) =
          some (inside, after ++ rest) := by
      obtain ⟨⟨inner, tail⟩, hfound, heq⟩ := Option.map_eq_some_iff.1 h
      obtain ⟨rfl, rfl⟩ := Prod.mk.inj heq
      rw [ih hfound, Option.map_some]
    unfold groupFrom? at h
    rw [List.cons_append, groupFrom?]
    split at h
    · rename_i hopens
      rw [if_pos hopens]
      exact hinner h
    · rename_i hopens
      rw [if_neg hopens]
      split at h
      · rename_i hcloses
        rw [if_pos hcloses]
        split at h
        · rename_i hdepth
          obtain ⟨rfl, rfl⟩ := Prod.mk.inj (Option.some.inj h)
          rw [if_pos hdepth]
        · rename_i hdepth
          rw [if_neg hdepth]
          exact hinner h
      · rename_i hcloses
        rw [if_neg hcloses]
        exact hinner h

/-- No part of what a group encloses closes it. -/
theorem groupFrom?_of_prefix {among : List Bracket} {outer : Token → Bool} {inside part : List Token}
    {bracket : Bracket} (h : Nested among outer inside) (hmem : bracket ∈ among) (hpart : part <+: inside)
    (depth : Nat) :
    groupFrom? bracket depth part = none := by
  obtain ⟨rest, rfl⟩ := hpart
  rw [Option.eq_none_iff_forall_ne_some]
  rintro ⟨inner, after⟩ hclosed
  have hwhole := groupFrom?_nested h hmem depth []
  rw [List.append_nil, groupFrom?_append hclosed] at hwhole
  exact absurd hwhole (by simp [groupFrom?])

theorem enclosed_of_prefix {among : List Bracket} {outer : Token → Bool} {inside part : List Token} {bracket : Bracket}
    (h : Nested among outer inside) (hmem : bracket ∈ among) (hpart : part <+: inside) (enclosure : Enclosure)
    (line : Nat) (opening : Token) :
    enclosed bracket enclosure line (opening :: part) = .error ⟨.openEnclosure enclosure, line⟩ := by
  rw [enclosed, List.tail_cons, group?, groupFrom?_of_prefix h hmem hpart]

namespace Grammar

/-! ### Functions that are cut off -/

namespace Function

/-- The function up to its name. -/
def upToName (function : Function) : List Token :=
  function.lead.tokens ++ [function.keyword.1, function.name.1]

/-- What stands between the name and the end of the parameters. -/
def toParameters (function : Function) : List Token :=
  function.generics.elim [] Group.tokens ++ function.opening.1 :: function.parameters.tokens

/-- What stands between the name and the body. -/
def toBody (function : Function) : List Token :=
  function.toParameters ++ function.closing.1 ::
    (function.returned.elim [] Returned.tokens ++ function.clause.elim [] WhereClause.tokens)

theorem tokens_eq (function : Function) :
    function.tokens = function.upToName ++ (function.toBody ++ function.body.tokens) := by
  simp [tokens, upToName, toBody, toParameters, tokensFromParameters]

/-- What is left of a function that is cut off behind its name and in front of the end of its parameters, or behind the
opening brace of its body and in front of the closing one. -/
inductive Truncated (function : Function) : List Token → Prop
  | parameters {part : List Token} (hpart : part <+: function.toParameters) :
    Truncated function (function.upToName ++ part)
  | body {braces : Group .brace [.brace]} {part : List Token} (hbody : function.body = .block braces)
      (hpart : part <+: braces.inside) :
    Truncated function (function.upToName ++ (function.toBody ++ braces.opening :: part))

/-- What can be wrong with a function that is cut off. -/
def isOpen (name : String) (flaw : Flaw) : Prop :=
  flaw = .noParameters name ∨ flaw = .openEnclosure (.group .angle) ∨ flaw = .openEnclosure (.parameters name) ∨
    flaw = .openEnclosure (.body name)

variable {part : List Token} (name : String) (line : Nat)

/-- Behind the generics there is no parameter list, or it is open. -/
theorem readNamed_open (opening : Mark "(") (parameters : Parameters) {isGeneric : Bool} {tokens : List Token}
    (hgenerics : Signature.skipGenerics line tokens = .ok (isGeneric, part))
    (hpart : part <+: opening.1 :: parameters.tokens) :
    ∃ flaw, isOpen name flaw ∧ Signature.readNamed name line tokens = .error ⟨flaw, line⟩ := by
  cases part with
  | nil =>
    refine ⟨.noParameters name, .inl rfl, ?_⟩
    simp [Signature.readNamed, hgenerics, bind, Except.bind, nextIsPunct, throw, throwThe, MonadExceptOf.throw]
  | cons token part =>
    obtain ⟨rfl, hinside⟩ := List.cons_prefix_cons.1 hpart
    refine ⟨.openEnclosure (.parameters name), .inr (.inr (.inl rfl)), ?_⟩
    have hopens : nextIsPunct (opening.1 :: part) "(" = true := by simp [nextIsPunct, opening.2]
    have hgroup := enclosed_of_prefix parameters.nested_tokens (by decide : Bracket.paren ∈ Bracket.all) hinside
      (.parameters name) line opening.1
    simp [Signature.readNamed, hgenerics, hopens, hgroup, bind, Except.bind]

/-- A part of generics and what follows them ends in the generics or behind them. -/
theorem prefix_group_cases {bracket : Bracket} {among : List Bracket} {group : Group bracket among} {rest : List Token}
    (hpart : part <+: group.tokens ++ rest) :
    part = [] ∨ (∃ inside, part = group.opening :: inside ∧ inside <+: group.inside) ∨
      ∃ left, part = group.tokens ++ left ∧ left <+: rest := by
  cases part with
  | nil => exact .inl rfl
  | cons token part =>
    rw [Group.tokens_append] at hpart
    obtain ⟨rfl, more, hmore⟩ := List.cons_prefix_cons.1 hpart
    rcases List.append_eq_append_iff.1 hmore with ⟨beyond, hinside, -⟩ | ⟨beyond, rfl, hbeyond⟩
    · exact .inr (.inl ⟨part, rfl, beyond, hinside.symm⟩)
    · cases beyond with
      | nil => exact .inr (.inl ⟨_, rfl, by simp⟩)
      | cons closing left =>
        obtain ⟨rfl, hleft⟩ := List.cons.inj hbeyond
        exact .inr (.inr ⟨left, by rw [Group.tokens_append], more, hleft.symm⟩)

theorem readNamed_toParameters (function : Function) (hpart : part <+: function.toParameters) :
    ∃ flaw, isOpen name flaw ∧ Signature.readNamed name line part = .error ⟨flaw, line⟩ := by
  have hangle {left : List Token} (hleft : left <+: function.opening.1 :: function.parameters.tokens) :
      nextIsPunct left "<" = false := by
    cases left with
    | nil => rfl
    | cons token left =>
      obtain ⟨rfl, -⟩ := List.cons_prefix_cons.1 hleft
      simpa [nextIsPunct] using Token.isPunct_eq_false function.opening.2 (by decide)
  unfold toParameters at hpart
  cases hgenerics : function.generics with
  | none =>
    rw [hgenerics] at hpart
    exact readNamed_open name line function.opening function.parameters
      (skipGenerics_written none line (hangle hpart)) hpart
  | some generics =>
    rw [hgenerics] at hpart
    obtain rfl | ⟨inside, rfl, hinside⟩ | ⟨left, rfl, hleft⟩ := prefix_group_cases hpart
    · exact readNamed_open name line function.opening function.parameters
        (skipGenerics_written none line rfl) List.nil_prefix
    · refine ⟨.openEnclosure (.group .angle), .inr (.inl rfl), ?_⟩
      have hopens : nextIsPunct (generics.opening :: inside) "<" = true := generics.opens
      have hgroup := enclosed_of_prefix generics.nested (by decide : Bracket.angle ∈ Bracket.all) hinside
        (.group .angle) line generics.opening
      simp [Signature.readNamed, Signature.skipGenerics, hopens, hgroup, bind, Except.bind]
    · exact readNamed_open name line function.opening function.parameters
        (skipGenerics_written (some generics) line (hangle hleft)) hleft

theorem readNamed_toBody (function : Function) {braces : Group .brace [.brace]} (hpart : part <+: braces.inside) :
    Signature.readNamed name line (function.toBody ++ braces.opening :: part) =
      .error ⟨.openEnclosure (.body name), line⟩ := by
  have hopens : braces.opening.isPunct "\x7b" = true := braces.opens
  have hreturned := readReturnType_written function.returned name line
    (endsSignature_mark function.clause (.inl hopens) part)
  have hclause := skipWhereClause_mark function.clause (.inl hopens) part
  have hbody : skipBody name line (braces.opening :: part) = .error ⟨.openEnclosure (.body name), line⟩ := by
    have hother : braces.opening.isPunct ";" = false := Token.isPunct_eq_false hopens (by decide)
    have hgroup := enclosed_of_prefix braces.nested (by decide : Bracket.brace ∈ [Bracket.brace]) hpart
      (.body name) line braces.opening
    simp [skipBody, hother, hopens, hgroup]
  have htokens : function.toBody ++ braces.opening :: part = function.generics.elim [] Group.tokens ++
      function.opening.1 :: (function.parameters.tokens ++ function.closing.1 ::
        (function.returned.elim [] Returned.tokens ++
          (function.clause.elim [] WhereClause.tokens ++ braces.opening :: part))) := by
    simp [toBody, toParameters]
  rw [htokens, readNamed_eq function.generics function.opening function.parameters.nested_tokens (by decide)
    function.closing, function.parameters.splitTopLevel_tokens, function.parameters.readParameters_chunks]
  simp [bind, Except.bind, hreturned, hclause, hbody]

/-- Where what follows the name of a function is refused, the survey ends. -/
theorem ofTokensFrom_refused (function : Function) {error : SourceError}
    (h : Signature.readNamed (Signature.plainName function.name.1.text) function.keyword.1.line part = .error error) :
    Survey.ofTokensFrom {} (function.upToName ++ part) = ⟨[], some error⟩ := by
  have hkeyword : BeginsWithIdent (function.keyword.1 :: function.name.1 :: part) :=
    ⟨_, _, rfl, (Token.isIdent_iff.1 function.keyword.2).1⟩
  have hstep : Item.step function.lead.modifiers function.keyword.1 (function.name.1 :: part) = .error error := by
    rw [step_fn function.keyword.2]
    simp [Item.function, Signature.read?, function.name.2, h]
  rw [upToName, List.append_assoc, List.cons_append, List.singleton_append, ofTokensFrom_lead _ hkeyword,
    Survey.ofTokensFrom_error hstep]

/-- Where a function is cut off, its keyword is blamed. -/
theorem Truncated.ofTokensFrom {function : Function} {cut : List Token} (h : function.Truncated cut) :
    ∃ flaw, isOpen (Signature.plainName function.name.1.text) flaw ∧
      Survey.ofTokensFrom {} cut = ⟨[], some ⟨flaw, function.keyword.1.line⟩⟩ := by
  cases h with
  | parameters hpart =>
    obtain ⟨flaw, hopen, hread⟩ := readNamed_toParameters _ _ function hpart
    exact ⟨flaw, hopen, function.ofTokensFrom_refused hread⟩
  | body hbody hpart =>
    exact ⟨_, .inr (.inr (.inr rfl)), function.ofTokensFrom_refused (readNamed_toBody _ _ function hpart)⟩

end Function

/-- A function that is cut off is always reported, behind items of all kinds. Whatever the items hold, the error tells
what is open and the line of the keyword of this function, and none of the functions is returned. -/
theorem functions_truncated (items : Items) {function : Function} {cut : List Token} (h : function.Truncated cut) :
    ∃ error, Function.isOpen (Signature.plainName function.name.1.text) error.flaw ∧
      error.line = function.keyword.1.line ∧
      (Survey.ofTokens (items.tokens ++ cut)).functions = .error error ∧
      ∀ source, tokens source = .ok (items.tokens ++ cut) → exportedFunctions source = .error error := by
  obtain ⟨flaw, hopen, hcut⟩ := h.ofTokensFrom
  have herror : (Survey.ofTokens (items.tokens ++ cut)).functions = .error ⟨flaw, function.keyword.1.line⟩ := by
    rw [Survey.ofTokens, ofTokensFrom_items, hcut]
    rfl
  refine ⟨_, hopen, rfl, herror, ?_⟩
  intro source hsource
  rw [exportedFunctions_eq hsource, herror]

namespace Sample

open Rust.Sample (word mark function nested_word isPunct_mark)

theorem nested_braces : Nested [.brace] anywhere [mark "\x7b", mark "\x7d"] := by
  have hopens : Bracket.brace.opens (mark "\x7b") = true := isPunct_mark "\x7b"
  exact .group (List.mem_singleton_self _) hopens rfl .nil (isPunct_mark "\x7d") .nil

/-- A body that holds a block. -/
def braces : Group .brace [.brace] where
  opening := mark "\x7b"
  inside := [mark "\x7b", mark "\x7d"]
  closing := mark "\x7d"
  opens := isPunct_mark "\x7b"
  nested := nested_braces
  closes := isPunct_mark "\x7d"

def blockFunction : Function :=
  { function with
    generics := some ⟨mark "<", [word "T"], mark ">", isPunct_mark "<", nested_word "T" rfl, isPunct_mark ">"⟩
    body := .block braces }

theorem truncated_generics : blockFunction.Truncated (blockFunction.upToName ++ [mark "<", word "T"]) :=
  .parameters ⟨mark ">" :: blockFunction.opening.1 :: blockFunction.parameters.tokens, rfl⟩

theorem truncated_body :
    blockFunction.Truncated (blockFunction.upToName ++ (blockFunction.toBody ++ braces.opening :: [mark "\x7b"])) :=
  .body rfl ⟨[mark "\x7d"], rfl⟩

end Sample

/-- A function that is cut off in its generics, and one in its body, behind a module that holds another. -/
theorem functions_truncated_sample :
    (∃ error, Function.isOpen "go" error.flaw ∧ error.line = 1 ∧
      exportedFunctions (Rust.Sample.source ++ "#[no_mangle] pub fn go<T") = .error error) ∧
    ∃ error, Function.isOpen "go" error.flaw ∧ error.line = 1 ∧
      exportedFunctions (Rust.Sample.source ++ "#[no_mangle] pub fn go<T>(x: u8) -> u8 \x7b\x7b") = .error error := by
  constructor
  · obtain ⟨error, hopen, hline, -, hsource⟩ := functions_truncated Rust.Sample.items Sample.truncated_generics
    exact ⟨error, hopen, hline, hsource _ (by decide +kernel)⟩
  · obtain ⟨error, hopen, hline, -, hsource⟩ := functions_truncated Rust.Sample.items Sample.truncated_body
    exact ⟨error, hopen, hline, hsource _ (by decide +kernel)⟩

end Grammar

end FfiBindings.Rust
