import FfiBindings.Proofs.Rust.Signature

/-!
Reading items that are written as the grammar has them. The modifiers in front of an item add up until
the item is read, and every item leaves none behind (`ofTokensFrom_items`), so what comes after some
items is read as if it stood alone. For the items of which the grammar says least, this needs an
invariant of what is left of them at any moment (`Unread`): every bracket that opens is still to be
closed, and the last token to come is one that drops the modifiers.
-/

set_option autoImplicit false
set_option relaxedAutoImplicit false

namespace FfiBindings.Rust

open Grammar

/-- A survey after findings that were made before it. -/
def Survey.after (findings : List Finding) (survey : Survey) : Survey :=
  ⟨findings ++ survey.findings, survey.error⟩

@[simp]
theorem Survey.after_after (first second : List Finding) (survey : Survey) :
    (survey.after second).after first = survey.after (first ++ second) := by
  simp [Survey.after]

theorem Survey.functions_after (findings : List Finding) (survey : Survey) :
    (survey.after findings).functions = survey.functions.map (findings.filterMap Finding.function? ++ ·) := by
  unfold Survey.functions Survey.after
  cases survey.error <;> simp [Except.map]

theorem Survey.ofTokensFrom_error {modifiers : Modifiers} {token : Token} {rest : List Token} {error : SourceError}
    (h : Item.step modifiers token rest = .error error) :
    ofTokensFrom modifiers (token :: rest) = ⟨[], some error⟩ := by
  rw [ofTokensFrom]
  split
  · rename_i heq
    obtain rfl : error = _ := by simpa [h] using heq
    rfl
  · rename_i heq
    simp [h] at heq

theorem Survey.ofTokensFrom_cons {modifiers : Modifiers} {token : Token} {rest : List Token}
    {step : Step} (h : Item.step modifiers token rest = .ok step) :
    ofTokensFrom modifiers (token :: rest) =
      (ofTokensFrom step.modifiers step.rest).after step.finding.toList := by
  rw [ofTokensFrom]
  split
  · rename_i heq
    simp [h] at heq
  · rename_i heq
    obtain rfl : step = _ := by simpa [h] using heq
    rfl

/-- A survey without an error goes on behind its first step, and what it finds begins with what that step found. -/
theorem Survey.exists_step_of_functions {modifiers : Modifiers} {token : Token} {rest : List Token}
    {found : List ExportedFunction} (h : (ofTokensFrom modifiers (token :: rest)).functions = .ok found) :
    ∃ step later, Item.step modifiers token rest = .ok step ∧
      (ofTokensFrom step.modifiers step.rest).functions = .ok later ∧
      found = step.finding.toList.filterMap Finding.function? ++ later := by
  cases hstep : Item.step modifiers token rest with
  | error error =>
    rw [ofTokensFrom_error hstep] at h
    exact absurd h (by simp [functions])
  | ok step =>
    rw [ofTokensFrom_cons hstep, functions_after] at h
    cases hlater : (ofTokensFrom step.modifiers step.rest).functions with
    | error error => exact absurd h (by simp [hlater, Except.map])
    | ok later =>
      rw [hlater] at h
      exact ⟨step, later, rfl, hlater, (Except.ok.inj h).symm⟩

theorem Survey.ofTokensFrom_of_step {before after : Modifiers} {token : Token}
    {rest left : List Token} (h : Item.step before token rest = .ok ⟨after, left, none⟩) :
    ofTokensFrom before (token :: rest) = ofTokensFrom after left :=
  ofTokensFrom_cons h

/-! ### Which branch a token takes -/

section Branches

variable {modifiers : Modifiers} {token : Token} {rest : List Token}

theorem Token.isPunct_of_ident (h : token.kind = .ident) (text : String) :
    token.isPunct text = false := by
  simp [Token.isPunct, h]

theorem step_hash (h : token.isPunct "#" = true) :
    Item.step modifiers token rest = Item.attributes modifiers token.line rest := by
  simp [Item.step, h]

theorem step_pub (h : token.isIdent "pub" = true) :
    Item.step modifiers token rest = Item.visibility modifiers rest := by
  simp [Item.step, Token.isPunct_of_ident (Token.isIdent_iff.1 h).1, h]

theorem step_foreignBlock (h : token.isIdent "extern" = true) :
    Item.step modifiers token rest = Item.foreign modifiers token.line rest := by
  obtain ⟨hkind, htext⟩ := Token.isIdent_iff.1 h
  simp [Item.step, Token.isPunct, Token.isIdent, hkind, htext]

theorem step_fn (h : token.isIdent "fn" = true) :
    Item.step modifiers token rest = Item.function modifiers token.line rest := by
  obtain ⟨hkind, htext⟩ := Token.isIdent_iff.1 h
  simp [Item.step, Token.isPunct, Token.isIdent, hkind, htext]

theorem step_block (h : token.isIdent "impl" = true ∨ token.isIdent "trait" = true) :
    Item.step modifiers token rest = Item.block token rest := by
  rcases h with h | h <;>
    (obtain ⟨hkind, htext⟩ := Token.isIdent_iff.1 h
     simp [Item.step, Token.isPunct, Token.isIdent, hkind, htext])

theorem step_name (hkind : token.kind = .ident) (hname : token.text ∉ reserved) :
    Item.step modifiers token rest =
      if nextIsPunct rest "!" then Item.macroCall token.line rest
      else .ok ⟨modifiers, rest, none⟩ := by
  simp only [reserved, List.mem_cons, List.not_mem_nil, or_false, not_or] at hname
  simp [Item.step, Token.isPunct, Token.isIdent, hkind, hname]

theorem step_mark (hkind : token.kind ≠ .ident) (hhash : token.isPunct "#" = false) :
    Item.step modifiers token rest =
      if [";", "\x7b", "\x7d"].any token.isPunct then .ok ⟨{}, rest, none⟩
      else .ok ⟨modifiers, rest, none⟩ := by
  simp [Item.step, Token.isIdent, hkind, hhash]

end Branches

/-! ### What stands before an item -/

/-- The next token is a word or a name. -/
def BeginsWithIdent (tokens : List Token) : Prop :=
  ∃ token rest, tokens = token :: rest ∧ token.kind = .ident

theorem BeginsWithIdent.nextIsPunct {tokens : List Token} (h : BeginsWithIdent tokens)
    (text : String) : nextIsPunct tokens text = false := by
  obtain ⟨token, rest, rfl, hkind⟩ := h
  exact Token.isPunct_of_ident hkind text

theorem BeginsWithIdent.nextIsKind {tokens : List Token} (h : BeginsWithIdent tokens)
    {kind : Token.Kind} (hne : kind ≠ .ident) : nextIsKind tokens kind = false := by
  obtain ⟨token, rest, rfl, hkind⟩ := h
  simpa [Rust.nextIsKind, hkind] using fun heq => hne heq.symm

theorem ofTokensFrom_attribute (modifiers : Modifiers) (written : Attribute) (rest : List Token) :
    Survey.ofTokensFrom modifiers (written.tokens ++ rest) =
      Survey.ofTokensFrom
        { modifiers with isUnmangled := modifiers.isUnmangled || written.unmangles } rest := by
  obtain ⟨hash, bang, group⟩ := written
  have hgroup := group.enclosed_tokens (by decide) (.group .square) hash.1.line rest
  have hopens : nextIsPunct (group.tokens ++ rest) "[" = true := group.opens
  have hbang : nextIsPunct (group.tokens ++ rest) "!" = false :=
    Token.isPunct_eq_false group.opens (by decide)
  simp only [Attribute.tokens, List.cons_append, List.append_assoc]
  apply Survey.ofTokensFrom_of_step
  rw [step_hash hash.2]
  cases bang with
  | none =>
    simp [Item.attributes, Item.dropNextIf, hbang, hopens, hgroup, Attribute.unmangles]
  | some bang =>
    have hnext : nextIsPunct (bang.1 :: (group.tokens ++ rest)) "!" = true := bang.2
    simp [Item.attributes, Item.dropNextIf, hnext, hopens, hgroup, Attribute.unmangles]

theorem ofTokensFrom_attributes (modifiers : Modifiers) (attributes : List Attribute)
    (rest : List Token) :
    Survey.ofTokensFrom modifiers (attributes.flatMap Attribute.tokens ++ rest) =
      Survey.ofTokensFrom { modifiers with
        isUnmangled := modifiers.isUnmangled || attributes.any Attribute.unmangles } rest := by
  induction attributes generalizing modifiers with
  | nil => simp
  | cons first attributes ih =>
    rw [List.flatMap_cons, List.append_assoc, ofTokensFrom_attribute, ih]
    simp [Bool.or_assoc]

theorem ofTokensFrom_visibility (modifiers : Modifiers) (visibility : Visibility)
    {rest : List Token} (hrest : BeginsWithIdent rest) :
    Survey.ofTokensFrom modifiers (visibility.tokens ++ rest) =
      Survey.ofTokensFrom
        { modifiers with isPublic := modifiers.isPublic || visibility.isPublic } rest := by
  cases visibility with
  | inherited => simp [Visibility.tokens, Visibility.isPublic]
  | bare keyword =>
    obtain ⟨next, tail, rfl, hkind⟩ := hrest
    apply Survey.ofTokensFrom_of_step
    rw [step_pub keyword.2]
    simp [Item.visibility, Token.isPunct_of_ident hkind, Visibility.isPublic]
  | restricted keyword scope =>
    have hgroup := scope.enclosed_tokens (by decide) (.group .paren) scope.opening.line rest
    have hopens : scope.opening.isPunct "(" = true := scope.opens
    rw [scope.tokens_append] at hgroup
    simp only [Visibility.tokens, List.cons_append, scope.tokens_append]
    apply Survey.ofTokensFrom_of_step
    rw [step_pub keyword.2]
    simp [Item.visibility, hopens, hgroup, Visibility.isPublic]

theorem Grammar.Qualifier.beginsWithIdent (qualifier : Qualifier) (rest : List Token) :
    BeginsWithIdent (qualifier.tokens ++ rest) := by
  cases qualifier with
  | word token h =>
    obtain ⟨text, -, hword⟩ := h
    exact ⟨token, rest, rfl, (Token.isIdent_iff.1 hword).1⟩
  | foreign keyword abi => exact ⟨keyword.1, _, rfl, (Token.isIdent_iff.1 keyword.2).1⟩

theorem beginsWithIdent_qualifiers (qualifiers : List Qualifier) {rest : List Token}
    (hrest : BeginsWithIdent rest) :
    BeginsWithIdent (qualifiers.flatMap Qualifier.tokens ++ rest) := by
  cases qualifiers with
  | nil => exact hrest
  | cons first qualifiers =>
    rw [List.flatMap_cons, List.append_assoc]
    exact first.beginsWithIdent _

theorem ofTokensFrom_qualifier (modifiers : Modifiers) (qualifier : Qualifier) {rest : List Token}
    (hrest : BeginsWithIdent rest) :
    Survey.ofTokensFrom modifiers (qualifier.tokens ++ rest) =
      Survey.ofTokensFrom { modifiers with
        hasForeignAbi := modifiers.hasForeignAbi || qualifier.isForeign } rest := by
  cases qualifier with
  | word token h =>
    obtain ⟨text, hmem, hword⟩ := h
    obtain ⟨hkind, rfl⟩ := Token.isIdent_iff.1 hword
    have hname : token.text ∉ reserved := by
      simp only [List.mem_cons, List.not_mem_nil, or_false] at hmem
      rcases hmem with htext | htext | htext <;> rw [htext] <;> decide
    apply Survey.ofTokensFrom_of_step
    rw [step_name hkind hname]
    simp [hrest.nextIsPunct, Qualifier.isForeign]
  | foreign keyword abi =>
    have hbrace := hrest.nextIsPunct "\x7b"
    have hstring : nextIsKind rest .string = false := hrest.nextIsKind (by decide)
    simp only [Qualifier.tokens, List.cons_append]
    apply Survey.ofTokensFrom_of_step
    rw [step_foreignBlock keyword.2]
    cases abi with
    | none => simp [Item.foreign, Item.dropNextIf, hstring, hbrace, Qualifier.isForeign]
    | some abi =>
      have habi : nextIsKind (abi.1 :: rest) .string = true := by simp [nextIsKind, abi.2]
      simp [Item.foreign, Item.dropNextIf, habi, hbrace, Qualifier.isForeign]

theorem ofTokensFrom_qualifiers (modifiers : Modifiers) (qualifiers : List Qualifier)
    {rest : List Token} (hrest : BeginsWithIdent rest) :
    Survey.ofTokensFrom modifiers (qualifiers.flatMap Qualifier.tokens ++ rest) =
      Survey.ofTokensFrom { modifiers with
        hasForeignAbi := modifiers.hasForeignAbi || qualifiers.any Qualifier.isForeign } rest := by
  induction qualifiers generalizing modifiers with
  | nil => simp
  | cons first qualifiers ih =>
    rw [List.flatMap_cons, List.append_assoc,
      ofTokensFrom_qualifier _ _ (beginsWithIdent_qualifiers qualifiers hrest), ih]
    simp [Bool.or_assoc]

/-- What stands before an item is known when the item begins, and nothing else is. -/
theorem ofTokensFrom_lead (lead : Lead) {rest : List Token} (hrest : BeginsWithIdent rest) :
    Survey.ofTokensFrom {} (lead.tokens ++ rest) = Survey.ofTokensFrom lead.modifiers rest := by
  have hqualifiers := beginsWithIdent_qualifiers lead.qualifiers hrest
  rw [Lead.tokens, List.append_assoc, List.append_assoc, ofTokensFrom_attributes,
    ofTokensFrom_visibility _ _ hqualifiers, ofTokensFrom_qualifiers _ _ hrest]
  simp [Lead.modifiers]

/-! ### Items with a shape of their own -/

theorem ofTokensFrom_function (function : Function) (rest : List Token) :
    Survey.ofTokensFrom {} (function.tokens ++ rest) =
      (Survey.ofTokensFrom {} rest).after function.finding?.toList := by
  have hkeyword : BeginsWithIdent (function.keyword.1 :: function.name.1 ::
      (function.generics.elim [] Group.tokens ++ (function.tokensFromParameters ++ rest))) :=
    ⟨_, _, rfl, (Token.isIdent_iff.1 function.keyword.2).1⟩
  have hread := function.readNamed_written (Signature.plainName function.name.1.text)
    function.keyword.1.line rest
  simp only [Function.tokens, List.append_assoc, List.cons_append]
  rw [ofTokensFrom_lead _ hkeyword]
  have hstep : Item.step function.lead.modifiers function.keyword.1 (function.name.1 ::
      (function.generics.elim [] Group.tokens ++ (function.tokensFromParameters ++ rest))) =
      .ok ⟨{}, rest, function.finding?⟩ := by
    rw [step_fn function.keyword.2]
    simp [Item.function, Signature.read?, function.name.2, hread, Function.finding?,
      Function.meaning]
  exact Survey.ofTokensFrom_cons hstep

/-- The first of these marks outside parentheses and square brackets ends the header of a block. -/
def endsHeader (token : Token) : Bool :=
  token.isPunct ";" || token.isPunct "\x7b"

theorem headerSize?_append {depth : Int} {tokens : List Token} (rest : List Token)
    (h : Passes [.paren, .square] endsHeader depth tokens) :
    Item.headerSize? depth (tokens ++ rest) =
      (Item.headerSize? (depth + depthSum [.paren, .square] tokens) rest).map
        (· + tokens.length) := by
  induction tokens generalizing depth with
  | nil => simp [depthSum]
  | cons token tokens ih =>
    obtain ⟨hstop, hpasses⟩ := h
    have hgo : (decide (depth = 0) && (token.isPunct ";" || token.isPunct "\x7b")) = false := by
      simpa [endsHeader] using hstop
    simp only [List.cons_append, Item.headerSize?, hgo, Bool.false_eq_true, if_false, ih hpasses,
      depthSum, List.map_cons, List.sum_cons, Int.add_assoc, Option.map_map, List.length_cons]
    congr 1

theorem headerSize?_eq {front : List Token} {mark : Token} (rest : List Token)
    (hfront : Passes [.paren, .square] endsHeader 0 front) (hdepth : depthSum [.paren, .square] front = 0)
    (hmark : endsHeader mark = true) : Item.headerSize? 0 (front ++ mark :: rest) = some front.length := by
  have hends : (mark.isPunct ";" || mark.isPunct "\x7b") = true := hmark
  rw [headerSize?_append _ hfront, hdepth]
  simp [Item.headerSize?, hends]

/-- A block ends with the braces at which its header is found to end. -/
theorem block_braces {among : List Bracket} {keyword : Token} {front : List Token}
    (group : Grammar.Group .brace among) (hmem : .brace ∈ among)
    (hfront : Passes [.paren, .square] endsHeader 0 front) (hdepth : depthSum [.paren, .square] front = 0)
    (rest : List Token) :
    Item.block keyword (front ++ (group.tokens ++ rest)) = .ok ⟨{}, rest, none⟩ := by
  have hopens : group.opening.isPunct "\x7b" = true := group.opens
  have hsize : Item.headerSize? 0 (front ++ (group.tokens ++ rest)) = some front.length := by
    rw [group.tokens_append]
    exact headerSize?_eq _ hfront hdepth (by simp [endsHeader, hopens])
  have hsemicolon : nextIsPunct (group.tokens ++ rest) ";" = false :=
    Token.isPunct_eq_false hopens (by decide)
  have hgroup := group.enclosed_tokens hmem (.group .brace) keyword.line rest
  simp [Item.block, hsize, hsemicolon, hgroup]

/-- No modifiers get past a block, and they make no difference to it. -/
theorem ofTokensFrom_blockKeyword (lead : Lead) {keyword : Token} {tokens left : List Token}
    (hkeyword : keyword.isIdent "impl" = true ∨ keyword.isIdent "trait" = true)
    (h : Item.block keyword tokens = .ok ⟨{}, left, none⟩) :
    Survey.ofTokensFrom {} (lead.tokens ++ keyword :: tokens) = Survey.ofTokensFrom {} left := by
  have hkind : keyword.kind = .ident := by
    rcases hkeyword with h | h <;> exact (Token.isIdent_iff.1 h).1
  rw [ofTokensFrom_lead _ ⟨_, _, rfl, hkind⟩]
  apply Survey.ofTokensFrom_of_step
  rw [step_block hkeyword, h]

theorem ofTokensFrom_block (block : Block) (rest : List Token) :
    Survey.ofTokensFrom {} (block.tokens ++ rest) = Survey.ofTokensFrom {} rest := by
  have hpasses : Passes [.paren, .square] endsHeader 0 block.header := by
    refine block.nestedHeader.passes (by decide) (fun token h => ?_)
      fun bracket hmem hout token hbrace => ?_
    · simp only [inHeader, Bool.and_eq_true, Bool.not_eq_true'] at h
      simp [endsHeader, h.1, h.2]
    · have hbracket : bracket = .brace := by
        cases bracket with
        | brace => rfl
        | angle => exact absurd hmem (by decide)
        | _ => exact absurd (by decide) hout
      subst hbracket
      have hpunct : token.isPunct "\x7b" = true := hbrace
      simp [inHeader, hpunct]
  simp only [Block.tokens, List.append_assoc, List.cons_append]
  exact ofTokensFrom_blockKeyword _ block.isBlock
    (block_braces block.body (by decide) hpasses (block.nestedHeader.depthSum_eq_zero (by decide)) rest)

theorem ofTokensFrom_imports (imports : Imports) (rest : List Token) :
    Survey.ofTokensFrom {} (imports.tokens ++ rest) = Survey.ofTokensFrom {} rest := by
  obtain ⟨lead, keyword, abi, body⟩ := imports
  have hopens : nextIsPunct (body.tokens ++ rest) "\x7b" = true := body.opens
  have hstring : nextIsKind (body.tokens ++ rest) .string = false := by
    have hkind : body.opening.kind = .punct := (Token.isPunct_iff.1 body.opens).1
    simp [Group.tokens, nextIsKind, hkind]
  have hgroup := body.enclosed_tokens (by decide) (.group .brace) keyword.1.line rest
  simp only [Imports.tokens, List.append_assoc, List.cons_append]
  rw [ofTokensFrom_lead _ ⟨_, _, rfl, (Token.isIdent_iff.1 keyword.2).1⟩]
  apply Survey.ofTokensFrom_of_step
  rw [step_foreignBlock keyword.2]
  cases abi with
  | none => simp [Item.foreign, Item.dropNextIf, hstring, hopens, hgroup]
  | some abi =>
    have habi : nextIsKind (abi.1 :: (body.tokens ++ rest)) .string = true := by
      simp [nextIsKind, abi.2]
    simp [Item.foreign, Item.dropNextIf, habi, hopens, hgroup]

theorem Bracket.opened?_of_opens {among : List Bracket} {bracket : Bracket} {token : Token}
    (hmem : bracket ∈ among) (h : bracket.opens token = true) :
    Bracket.opened? among token = some bracket := by
  unfold Bracket.opened?
  cases hfind : among.find? (·.opens token) with
  | none => simpa [h] using List.find?_eq_none.1 hfind bracket hmem
  | some other =>
    have hother := List.find?_some hfind
    exact congrArg some (Bracket.eq_of_opens hother h)

theorem ofTokensFrom_macroCall (call : MacroCall) (rest : List Token) :
    Survey.ofTokensFrom {} (call.tokens ++ rest) = Survey.ofTokensFrom {} rest := by
  obtain ⟨lead, name, bang, defined, bracket, hmem, body⟩ := call
  have hopened : Bracket.opened? [.paren, .square, .brace] body.opening = some bracket :=
    Bracket.opened?_of_opens hmem body.opens
  have hkind : nextIsKind (body.tokens ++ rest) .ident = false := by
    have hpunct : body.opening.kind = .punct := (Token.isPunct_iff.1 body.opens).1
    simp [Group.tokens, nextIsKind, hpunct]
  have hgroup := body.enclosed_tokens hmem (.group bracket) name.1.line rest
  have hbang (tail : List Token) : nextIsPunct (bang.1 :: tail) "!" = true := bang.2
  have hhead : (body.tokens ++ rest).head? = some body.opening := rfl
  simp only [MacroCall.tokens, List.append_assoc, List.cons_append]
  rw [ofTokensFrom_lead _ ⟨_, _, rfl, name.2.1⟩]
  apply Survey.ofTokensFrom_of_step
  rw [step_name name.2.1 name.2.2, hbang, if_pos rfl]
  cases defined with
  | none => simp [Item.macroCall, Item.dropNextIf, hkind, hhead, hopened, hgroup]
  | some defined =>
    have hdefined : nextIsKind (defined.1 :: (body.tokens ++ rest)) .ident = true := by
      simp [nextIsKind, defined.2]
    simp [Item.macroCall, Item.dropNextIf, hdefined, hhead, hopened, hgroup]

theorem ofTokensFrom_moduleHeader (header : ModuleHeader) (rest : List Token) :
    Survey.ofTokensFrom {} (header.tokens ++ rest) = Survey.ofTokensFrom {} rest := by
  obtain ⟨lead, keyword, name, opening⟩ := header
  obtain ⟨hkind, htext⟩ := Token.isIdent_iff.1 keyword.2
  have hreserved : keyword.1.text ∉ reserved := by
    rw [htext]
    decide
  have hopening : opening.1.kind ≠ .ident := by simp [(Token.isPunct_iff.1 opening.2).1]
  have hkeyword : nextIsPunct (name.1 :: opening.1 :: rest) "!" = false :=
    Token.isPunct_of_ident name.2.1 "!"
  have hname : nextIsPunct (opening.1 :: rest) "!" = false :=
    Token.isPunct_eq_false opening.2 (by decide)
  have hbraces : [";", "\x7b", "\x7d"].any opening.1.isPunct = true := by simp [opening.2]
  simp only [ModuleHeader.tokens, List.append_assoc, List.cons_append, List.nil_append]
  rw [ofTokensFrom_lead _ ⟨_, _, rfl, hkind⟩]
  have hfirst : Item.step lead.modifiers keyword.1 (name.1 :: opening.1 :: rest) =
      .ok ⟨lead.modifiers, name.1 :: opening.1 :: rest, none⟩ := by
    simp [step_name hkind hreserved, hkeyword]
  have hsecond : Item.step lead.modifiers name.1 (opening.1 :: rest) =
      .ok ⟨lead.modifiers, opening.1 :: rest, none⟩ := by
    simp [step_name name.2.1 name.2.2, hname]
  have hthird : Item.step lead.modifiers opening.1 rest = .ok ⟨{}, rest, none⟩ := by
    rw [step_mark hopening (Token.isPunct_eq_false opening.2 (by decide)), hbraces, if_pos rfl]
  rw [Survey.ofTokensFrom_of_step hfirst, Survey.ofTokensFrom_of_step hsecond,
    Survey.ofTokensFrom_of_step hthird]

theorem ofTokensFrom_closing {token : Token} (modifiers : Modifiers)
    (h : token.isPunct "\x7d" = true) (rest : List Token) :
    Survey.ofTokensFrom modifiers (token :: rest) = Survey.ofTokensFrom {} rest := by
  have hkind : token.kind ≠ .ident := by simp [(Token.isPunct_iff.1 h).1]
  apply Survey.ofTokensFrom_of_step
  rw [step_mark hkind (Token.isPunct_eq_false h (by decide))]
  simp [h]

/-! ### Any other item -/

/-- The last token of an item. -/
def endsItem (token : Token) : Bool :=
  token.isPunct ";" || token.isPunct "\x7d"

theorem endsItem_eq_false {token : Token} {text : String} (h : token.isPunct text = true)
    (hsemicolon : text ≠ ";") (hbrace : text ≠ "\x7d") : endsItem token = false := by
  simp [endsItem, Token.isPunct_eq_false h hsemicolon, Token.isPunct_eq_false h hbrace]

theorem endsItem_of_kind_ne {token : Token} (h : token.kind ≠ .punct) : endsItem token = false := by
  simp [endsItem, Token.isPunct, h]

/-- What may be left of another item at any moment. -/
structure Unread (tokens : List Token) : Prop where
  closed : Closed Bracket.delimiters tokens
  holdsNoFunction : HoldsNoFunction tokens
  ends : ∀ last, tokens.getLast? = some last → endsItem last = true

theorem Grammar.Other.unread (other : Other) : Unread other.tokens where
  closed := by simpa [Other.tokens] using other.nested.closed_append .nil
  holdsNoFunction := other.holdsNoFunction
  ends last hlast := by
    obtain rfl : other.last = last := by simpa [Other.tokens] using hlast
    simpa [endsItem] using other.ends

namespace Unread

variable {tokens left : List Token} {token : Token} {rest : List Token}

theorem of_suffix (h : Unread tokens) (hleft : left <:+ tokens) : Unread left where
  closed := h.closed.of_suffix hleft
  holdsNoFunction :=
    { noBlock := fun token hmem => h.holdsNoFunction.noBlock token (hleft.subset hmem)
      noName := fun keyword name hinside =>
        h.holdsNoFunction.noName keyword name (hinside.trans hleft.isInfix) }
  ends last hlast := by
    obtain ⟨front, rfl⟩ := hleft
    exact h.ends last (by rw [List.getLast?_append, hlast, Option.some_or])

/-- Only the last token of an item ends it. -/
theorem rest_ne_nil (h : Unread (token :: rest)) (htoken : endsItem token = false) : rest ≠ [] := by
  rintro rfl
  have := h.ends token rfl
  simp [htoken] at this

/-- Passing over a token that ends no item leaves something of the item. -/
theorem dropNextIf (h : Unread tokens) (hne : tokens ≠ []) {condition : Token → Bool}
    (hcondition : ∀ token, condition token = true → endsItem token = false) (more : List Token) :
    ∃ left, left <:+ tokens ∧ left ≠ [] ∧
      Item.dropNextIf ((tokens ++ more).head?.any condition) (tokens ++ more) = left ++ more := by
  obtain ⟨token, rest, rfl⟩ := List.exists_cons_of_ne_nil hne
  by_cases htoken : condition token = true
  · exact ⟨rest, List.suffix_cons token rest, h.rest_ne_nil (hcondition token htoken),
      by simp [Item.dropNextIf, htoken]⟩
  · exact ⟨token :: rest, List.suffix_refl _, hne, by simp [Item.dropNextIf, htoken]⟩

/-- A group is passed over within the item, and it ends the item only when it is in braces. -/
theorem enclosed (h : Unread (token :: rest)) {bracket : Bracket}
    (hmem : bracket ∈ Bracket.delimiters) (hopens : bracket.opens token = true)
    (enclosure : Enclosure) (line : Nat) (more : List Token) :
    ∃ inside after, after <:+ rest ∧ (after = [] → bracket = .brace) ∧
      Rust.enclosed bracket enclosure line (token :: rest ++ more) = .ok (inside, after ++ more) := by
  obtain ⟨inside, closing, after, rfl, hnested, hcloses⟩ := h.closed.exists_group hmem hopens
  refine ⟨inside, after, ?_, ?_, ?_⟩
  · exact (List.suffix_cons closing after).trans (List.suffix_append inside _)
  · rintro rfl
    have hlast : (token :: (inside ++ [closing])).getLast? = some closing :=
      List.getLast?_concat (l := token :: inside)
    have hends := h.ends closing hlast
    simp only [endsItem, Bool.or_eq_true] at hends
    rcases hends with hends | hends
    · have hclosing : bracket.closing = ";" :=
        (Token.isPunct_iff.1 hcloses).2.symm.trans (Token.isPunct_iff.1 hends).2
      cases bracket <;> exact absurd hclosing (by decide)
    · exact Bracket.eq_of_closes hcloses hends
  · simpa using enclosed_of_nested hnested hmem hcloses enclosure line (after ++ more)

end Unread

/-- A step within another item: something of the item is left, or else no modifiers are. -/
inductive StaysWithin (modifiers : Modifiers) (token : Token) (rest more : List Token) : Prop
  | goesOn {after : Modifiers} {left : List Token} (hleft : left <:+ rest) (hne : left ≠ [])
      (hstep : Item.step modifiers token (rest ++ more) = .ok ⟨after, left ++ more, none⟩)
  | drops {left : List Token} (hleft : left <:+ rest)
      (hstep : Item.step modifiers token (rest ++ more) = .ok ⟨{}, left ++ more, none⟩)

section Steps

variable {modifiers : Modifiers} {token : Token} {rest : List Token}

/-- A group in other brackets than braces does not end the item. -/
theorem Unread.enclosed_ne_nil (h : Unread (token :: rest)) {bracket : Bracket}
    (hmem : bracket ∈ Bracket.delimiters) (hopens : bracket.opens token = true)
    (hbrace : bracket ≠ .brace) (enclosure : Enclosure) (line : Nat) (more : List Token) :
    ∃ inside after, after <:+ rest ∧ after ≠ [] ∧
      Rust.enclosed bracket enclosure line (token :: rest ++ more) = .ok (inside, after ++ more) := by
  obtain ⟨inside, after, hafter, hend, hgroup⟩ := h.enclosed hmem hopens enclosure line more
  exact ⟨inside, after, hafter, fun hnil => hbrace (hend hnil), hgroup⟩

theorem staysWithin_hash (h : Unread (token :: rest)) (htoken : token.isPunct "#" = true)
    (more : List Token) : StaysWithin modifiers token rest more := by
  have hrest := h.of_suffix (List.suffix_cons token rest)
  have hbang (next : Token) (hnext : next.isPunct "!" = true) : endsItem next = false :=
    endsItem_eq_false hnext (by decide) (by decide)
  obtain ⟨left, hleft, hne, hdrop⟩ :=
    hrest.dropNextIf (h.rest_ne_nil (endsItem_eq_false htoken (by decide) (by decide))) hbang more
  obtain ⟨next, tail, rfl⟩ := List.exists_cons_of_ne_nil hne
  by_cases hopens : Bracket.square.opens next = true
  · obtain ⟨inside, after, hafter, hnonempty, hgroup⟩ :=
      (hrest.of_suffix hleft).enclosed_ne_nil (by decide) hopens (by decide) (.group .square)
        token.line more
    have hnext : (next :: tail ++ more).head?.any (·.isPunct "[") = true := hopens
    apply StaysWithin.goesOn (hafter.trans ((List.suffix_cons next tail).trans hleft)) hnonempty
    rw [step_hash htoken]
    simp only [Item.attributes, nextIsPunct, hdrop, hnext, hgroup, if_true]
    rfl
  · have hnext : (next :: tail ++ more).head?.any (·.isPunct "[") = false :=
      Bool.eq_false_iff.2 hopens
    apply StaysWithin.goesOn hleft hne
    rw [step_hash htoken]
    simp only [Item.attributes, nextIsPunct, hdrop, hnext, Bool.false_eq_true, if_false]
    rfl

theorem staysWithin_pub (h : Unread (token :: rest)) (htoken : token.isIdent "pub" = true)
    (more : List Token) : StaysWithin modifiers token rest more := by
  have hrest := h.of_suffix (List.suffix_cons token rest)
  have hkind : token.kind ≠ .punct := by simp [(Token.isIdent_iff.1 htoken).1]
  obtain ⟨next, tail, rfl⟩ :=
    List.exists_cons_of_ne_nil (h.rest_ne_nil (endsItem_of_kind_ne hkind))
  by_cases hopens : Bracket.paren.opens next = true
  · obtain ⟨inside, after, hafter, hnonempty, hgroup⟩ :=
      hrest.enclosed_ne_nil (by decide) hopens (by decide) (.group .paren) next.line more
    have hnext : next.isPunct "(" = true := hopens
    rw [List.cons_append] at hgroup
    apply StaysWithin.goesOn (hafter.trans (List.suffix_cons next tail)) hnonempty
    rw [step_pub htoken]
    simp only [Item.visibility, List.cons_append, hnext, hgroup, if_true]
    rfl
  · have hnext : next.isPunct "(" = false := Bool.eq_false_iff.2 hopens
    apply StaysWithin.goesOn (List.suffix_refl _) (List.cons_ne_nil next tail)
    rw [step_pub htoken]
    simp only [Item.visibility, List.cons_append, hnext, Bool.false_eq_true, if_false]
    rfl

theorem staysWithin_extern (h : Unread (token :: rest)) (htoken : token.isIdent "extern" = true)
    (more : List Token) : StaysWithin modifiers token rest more := by
  have hrest := h.of_suffix (List.suffix_cons token rest)
  have hkind : token.kind ≠ .punct := by simp [(Token.isIdent_iff.1 htoken).1]
  have hstring (next : Token) (hnext : (next.kind == .string) = true) : endsItem next = false :=
    endsItem_of_kind_ne (by simp [eq_of_beq hnext])
  obtain ⟨left, hleft, hne, hdrop⟩ :=
    hrest.dropNextIf (h.rest_ne_nil (endsItem_of_kind_ne hkind)) hstring more
  obtain ⟨next, tail, rfl⟩ := List.exists_cons_of_ne_nil hne
  by_cases hopens : Bracket.brace.opens next = true
  · obtain ⟨inside, after, hafter, -, hgroup⟩ :=
      (hrest.of_suffix hleft).enclosed (by decide) hopens (.group .brace) token.line more
    have hnext : (next :: tail ++ more).head?.any (·.isPunct "\x7b") = true := hopens
    refine .drops (hafter.trans ((List.suffix_cons next tail).trans hleft)) ?_
    rw [step_foreignBlock htoken]
    simp only [Item.foreign, nextIsPunct, nextIsKind, hdrop, hnext, hgroup, if_true]
  · have hnext : (next :: tail ++ more).head?.any (·.isPunct "\x7b") = false :=
      Bool.eq_false_iff.2 hopens
    apply StaysWithin.goesOn hleft hne
    rw [step_foreignBlock htoken]
    simp only [Item.foreign, nextIsPunct, nextIsKind, hdrop, hnext, Bool.false_eq_true, if_false]
    rfl

/-- Without a name after it `fn` is the type of a function pointer. -/
theorem staysWithin_fn (h : Unread (token :: rest)) (htoken : token.isIdent "fn" = true)
    (more : List Token) : StaysWithin modifiers token rest more := by
  have hkind : token.kind ≠ .punct := by simp [(Token.isIdent_iff.1 htoken).1]
  obtain ⟨next, tail, rfl⟩ :=
    List.exists_cons_of_ne_nil (h.rest_ne_nil (endsItem_of_kind_ne hkind))
  have hnext : next.kind ≠ .ident :=
    h.holdsNoFunction.noName token next ⟨[], tail, rfl⟩ htoken
  refine .drops (List.suffix_refl _) ?_
  rw [step_fn htoken]
  simp [Item.function, Signature.read?, hnext]

theorem staysWithin_macroCall (h : Unread (token :: rest)) (hkind : token.kind = .ident)
    (hname : token.text ∉ reserved) (more : List Token)
    (hnext : nextIsPunct (rest ++ more) "!" = true) : StaysWithin modifiers token rest more := by
  have hrest := h.of_suffix (List.suffix_cons token rest)
  obtain ⟨bang, tail, rfl⟩ :=
    List.exists_cons_of_ne_nil (h.rest_ne_nil (endsItem_of_kind_ne (by simp [hkind])))
  have htail := hrest.of_suffix (List.suffix_cons bang tail)
  have hident (next : Token) (hnext : (next.kind == .ident) = true) : endsItem next = false :=
    endsItem_of_kind_ne (by simp [eq_of_beq hnext])
  obtain ⟨left, hleft, hne, hdrop⟩ :=
    htail.dropNextIf (hrest.rest_ne_nil (endsItem_eq_false hnext (by decide) (by decide))) hident more
  obtain ⟨next, after, rfl⟩ := List.exists_cons_of_ne_nil hne
  have hwithin := hleft.trans (List.suffix_cons bang tail)
  cases hopened : Bracket.opened? [.paren, .square, .brace] next with
  | none =>
    refine .drops hwithin ?_
    rw [step_name hkind hname, hnext, if_pos rfl]
    simp only [Item.macroCall, nextIsKind, List.cons_append, List.tail_cons] at hdrop ⊢
    simp only [hdrop, List.head?_cons, Option.bind_some, hopened]
  | some bracket =>
    have hmem : bracket ∈ Bracket.delimiters := List.mem_of_find?_eq_some hopened
    have hopens := List.find?_some hopened
    obtain ⟨inside, left, hafter, -, hgroup⟩ :=
      (htail.of_suffix hleft).enclosed hmem hopens (.group bracket) token.line more
    refine .drops (hafter.trans ((List.suffix_cons next after).trans hwithin)) ?_
    rw [step_name hkind hname, hnext, if_pos rfl]
    simp only [Item.macroCall, nextIsKind, List.cons_append, List.tail_cons] at hdrop hgroup ⊢
    simp only [hdrop, List.head?_cons, Option.bind_some, hopened, hgroup]

theorem staysWithin (h : Unread (token :: rest)) (more : List Token) :
    StaysWithin modifiers token rest more := by
  by_cases hkind : token.kind = .ident
  · by_cases hname : token.text ∈ reserved
    · obtain ⟨himpl, htrait⟩ := h.holdsNoFunction.noBlock token (by simp)
      simp only [Token.isIdent, hkind, beq_self_eq_true, Bool.true_and, beq_eq_false_iff_ne] at himpl htrait
      simp only [reserved, List.mem_cons, List.not_mem_nil, or_false] at hname
      rcases hname with htext | htext | htext | htext | htext
      · exact staysWithin_pub h (Token.isIdent_iff.2 ⟨hkind, htext⟩) more
      · exact staysWithin_extern h (Token.isIdent_iff.2 ⟨hkind, htext⟩) more
      · exact staysWithin_fn h (Token.isIdent_iff.2 ⟨hkind, htext⟩) more
      · exact absurd htext himpl
      · exact absurd htext htrait
    · by_cases hbang : nextIsPunct (rest ++ more) "!" = true
      · exact staysWithin_macroCall h hkind hname more hbang
      · apply StaysWithin.goesOn (List.suffix_refl _)
          (h.rest_ne_nil (endsItem_of_kind_ne (by simp [hkind])))
        rw [step_name hkind hname, if_neg hbang]
  · by_cases hhash : token.isPunct "#" = true
    · exact staysWithin_hash h hhash more
    · rw [Bool.not_eq_true] at hhash
      by_cases hends : [";", "\x7b", "\x7d"].any token.isPunct = true
      · refine .drops (List.suffix_refl _) ?_
        rw [step_mark hkind hhash, if_pos hends]
      · have hgoes : endsItem token = false := by
          simp only [List.any_cons, List.any_nil, Bool.or_false, Bool.or_eq_true, not_or,
            Bool.not_eq_true] at hends
          simp [endsItem, hends]
        apply StaysWithin.goesOn (List.suffix_refl _) (h.rest_ne_nil hgoes)
        rw [step_mark hkind hhash, if_neg hends]

end Steps

/-- Another item is passed over, whatever was said before it. -/
theorem ofTokensFrom_unread (modifiers : Modifiers) (more : List Token) :
    ∀ tokens : List Token, Unread tokens → tokens ≠ [] →
      Survey.ofTokensFrom modifiers (tokens ++ more) = Survey.ofTokensFrom {} more
  | [], _, hne => absurd rfl hne
  | token :: rest, h, _ => by
    have hrest := h.of_suffix (List.suffix_cons token rest)
    rw [List.cons_append]
    cases (staysWithin h more : StaysWithin modifiers token rest more) with
    | @goesOn after left hleft hne hstep =>
      have hlength := hleft.length_le
      rw [Survey.ofTokensFrom_of_step hstep]
      exact ofTokensFrom_unread after more left (hrest.of_suffix hleft) hne
    | @drops left hleft hstep =>
      have hlength := hleft.length_le
      rw [Survey.ofTokensFrom_of_step hstep]
      by_cases hne : left = []
      · rw [hne, List.nil_append]
      · exact ofTokensFrom_unread {} more left (hrest.of_suffix hleft) hne
termination_by tokens => tokens.length

/-! ### Lists of items -/

/-- Items give what they hold, and what comes after them is read as if they had not been there. -/
theorem ofTokensFrom_items (items : Items) (rest : List Token) :
    Survey.ofTokensFrom {} (items.tokens ++ rest) =
      (Survey.ofTokensFrom {} rest).after items.findings := by
  induction items generalizing rest with
  | none => rfl
  | function item more ih =>
    rw [Items.tokens, List.append_assoc, ofTokensFrom_function, ih, Survey.after_after,
      Items.findings]
  | block item more ih =>
    rw [Items.tokens, List.append_assoc, ofTokensFrom_block, ih, Items.findings]
  | imports item more ih =>
    rw [Items.tokens, List.append_assoc, ofTokensFrom_imports, ih, Items.findings]
  | macroCall item more ih =>
    rw [Items.tokens, List.append_assoc, ofTokensFrom_macroCall, ih, Items.findings]
  | other item more ih =>
    have hne : item.tokens ≠ [] := by simp [Other.tokens]
    rw [Items.tokens, List.append_assoc, ofTokensFrom_unread _ _ _ item.unread hne, ih,
      Items.findings]
  | module header inside closing more ihinside ihmore =>
    rw [Items.tokens, List.append_assoc, List.append_assoc, List.cons_append,
      ofTokensFrom_moduleHeader, ihinside, ofTokensFrom_closing _ closing.2, ihmore,
      Survey.after_after, Items.findings]

theorem Survey.ofTokens_items (items : Items) :
    Survey.ofTokens items.tokens = ⟨items.findings, none⟩ := by
  have hitems := ofTokensFrom_items items []
  rw [List.append_nil] at hitems
  rw [Survey.ofTokens, hitems, Survey.ofTokensFrom]
  simp [Survey.after]

theorem Survey.functions_items (items : Items) : (Survey.ofTokens items.tokens).functions = .ok items.exports := by
  rw [Survey.ofTokens_items]
  rfl

theorem exportedFunctions_eq {source : String} {written : List Token} (h : tokens source = .ok written) :
    exportedFunctions source = (Survey.ofTokens written).functions := by
  rw [exportedFunctions, Survey.ofSource, h]

/-- The functions that well-formed items export are found, each as it is written and in the order of
the items; so it is for every source that is cut into the tokens of the items. -/
theorem exportedFunctions_items (items : Items) :
    (Survey.ofTokens items.tokens).functions = .ok items.exports ∧
      ∀ source, tokens source = .ok items.tokens →
        exportedFunctions source = .ok items.exports := by
  have hsurvey : (Survey.ofTokens items.tokens).functions = .ok items.exports := by
    simp [Survey.ofTokens_items, Survey.functions, Items.exports]
  refine ⟨hsurvey, ?_⟩
  intro source htokens
  rw [exportedFunctions, Survey.ofSource, htokens]
  exact hsurvey

namespace Sample

/-- A word on the first line. -/
def word (text : String) : Token := ⟨.ident, text, 1⟩

/-- A mark on the first line. -/
def mark (text : String) : Token := ⟨.punct, text, 1⟩

theorem isPunct_mark (text : String) : (mark text).isPunct text = true := by
  simp [mark, Token.isPunct]

theorem isIdent_word (text : String) : (word text).isIdent text = true := by
  simp [word, Token.isIdent]

theorem nested_word {outer : Token → Bool} (text : String) (h : outer (word text) = true) :
    Nested Bracket.all outer [word text] :=
  .plain (isPlain_of_kind_ne (by simp [word])) h .nil

/-- A function with the attribute `no_mangle`. -/
def function : Function where
  lead :=
    { attributes := [⟨⟨mark "#", by decide⟩, none, ⟨mark "[", [word "no_mangle"], mark "]", by decide,
        .plain (isPlain_of_kind_ne (by decide)) rfl .nil, by decide⟩⟩]
      visibility := .bare ⟨word "pub", by decide⟩
      qualifiers := [] }
  keyword := ⟨word "fn", by decide⟩
  name := ⟨word "go", by decide⟩
  generics := none
  opening := ⟨mark "(", by decide⟩
  parameters := .last
    { pattern := [word "x"]
      colon := ⟨mark ":", by decide⟩
      type := [word "u8"]
      nestedPattern := nested_word "x" (by decide)
      nestedType := nested_word "u8" (by decide)
      hasType := by decide }
  closing := ⟨mark ")", by decide⟩
  returned := some
    { arrow := ⟨mark "->", by decide⟩
      type := [word "u8"]
      nested := nested_word "u8" (by decide)
      hasType := by decide }
  clause := none
  body := .semicolon ⟨mark ";", by decide⟩

/-- A module that holds a block and the function. -/
def items : Items :=
  .module
    { lead := ⟨[], .inherited, []⟩
      keyword := ⟨word "mod", by decide⟩
      name := ⟨word "m", by decide⟩
      opening := ⟨mark "\x7b", by decide⟩ }
    (.block
      { lead := ⟨[], .inherited, []⟩
        keyword := word "impl"
        header := [word "S"]
        body := ⟨mark "\x7b", [], mark "\x7d", by decide, .nil, by decide⟩
        isBlock := by decide
        nestedHeader := .plain (isPlain_of_kind_ne (by decide)) (by decide) .nil }
      (.function function .none))
    ⟨mark "\x7d", by decide⟩ .none

def source : String :=
  "mod m \x7b impl S \x7b\x7d #[no_mangle] pub fn go(x: u8) -> u8; \x7d"

end Sample

theorem exportedFunctions_sample :
    tokens Sample.source = .ok Sample.items.tokens ∧
      exportedFunctions Sample.source = .ok [⟨"go", [⟨"u8", "x"⟩], "u8", 1⟩] := by
  have htokens : tokens Sample.source = .ok Sample.items.tokens := by decide +kernel
  have hexports : Sample.items.exports = [⟨"go", [⟨"u8", "x"⟩], "u8", 1⟩] := by decide +kernel
  exact ⟨htokens, hexports ▸ (exportedFunctions_items Sample.items).2 Sample.source htokens⟩

end FfiBindings.Rust
