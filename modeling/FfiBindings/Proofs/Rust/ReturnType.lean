import FfiBindings.Proofs.Rust.Arity

/-!
Where a return type ends. It is read up to the first brace, semicolon or `where` outside all brackets, and there each
`<` and `>` counts as a bracket, also one that is an operator in the length of an array. So the type of a function is
read as it is written, and the items behind the function are found, exactly if the count comes out
(`Phrase.EndsItself`): the walk may not meet such a token within the type, and behind the type it has to be at depth
zero (`returned_typed`).
-/

set_option autoImplicit false
set_option relaxedAutoImplicit false

namespace FfiBindings.Rust

namespace Grammar

/-! ### Return types -/

/-- A walk over the phrase is not stopped within it and comes out at depth zero, where each `<` and `>` counts. -/
structure Phrase.EndsItself {form : Form} (phrase : Phrase form) : Prop where
  passes : Passes Bracket.all endsReturnType 0 phrase.tokens
  balanced : phrase.excess = 0

instance {form : Form} (phrase : Phrase form) : Decidable phrase.EndsItself :=
  decidable_of_iff (Passes Bracket.all endsReturnType 0 phrase.tokens ∧ phrase.excess = 0)
    ⟨fun h => ⟨h.1, h.2⟩, fun h => ⟨h.passes, h.balanced⟩⟩

theorem text_ne_empty_of_endsReturnType {token : Token} (h : endsReturnType token = true) : token.text ≠ "" := by
  rw [endsReturnType, Bool.or_eq_true, Bool.or_eq_true, Token.isPunct_iff, Token.isPunct_iff, Token.isIdent_iff] at h
  rcases h with (⟨-, htext⟩ | ⟨-, htext⟩) | ⟨-, htext⟩ <;> simp [htext]

section ReturnType

variable {returned : Phrase .type} {arrow : Mark "->"} {function : String} {line : Nat} {rest left : List Token}

theorem readReturnType_arrow (arrow : Mark "->") (rest : List Token) :
    readReturnType function line (arrow.1 :: rest) =
      if returnTypeSize 0 rest = 0 then .error ⟨.noReturnType function, line⟩
      else .ok (spell (rest.take (returnTypeSize 0 rest)), rest.drop (returnTypeSize 0 rest)) := by
  have harrow : nextIsPunct (arrow.1 :: rest) "->" = true := arrow.2
  rw [readReturnType, harrow, if_pos rfl, List.tail_cons]

theorem readReturnType_phrase (h : returned.EndsItself) (hrest : EndsSignature rest) :
    readReturnType function line (arrow.1 :: (returned.tokens ++ rest)) = .ok (spell returned.tokens, rest) := by
  obtain ⟨token, tail, rfl, hends⟩ := hrest.ends
  have hsize : returnTypeSize 0 (returned.tokens ++ token :: tail) = returned.tokens.length := by
    rw [returnTypeSize_append _ h.passes, returned.depthSum_all, h.balanced]
    simp [returnTypeSize, hends]
  have hsome : returned.tokens.length ≠ 0 := by simpa using returned.type_ne_nil
  rw [readReturnType_arrow, hsize, if_neg hsome, List.take_left, List.drop_left]

/-- A type that is read as it is written was neither cut short nor run on into what follows. -/
theorem endsItself_of_readReturnType (hrest : EndsSignature rest)
    (h : readReturnType function line (arrow.1 :: (returned.tokens ++ rest)) = .ok (spell returned.tokens, left)) :
    returned.EndsItself := by
  rw [readReturnType_arrow] at h
  split at h
  · exact absurd h (by simp)
  obtain ⟨hspell, -⟩ := Prod.mk.inj (Except.ok.inj h)
  -- A token that stopped the walk within the type would cut the type short.
  have hpasses : Passes Bracket.all endsReturnType 0 returned.tokens := by
    by_contra hstopped
    obtain ⟨front, mark, back, htokens, hfront, hdepth, hmark⟩ := exists_of_not_passes hstopped
    have hsize : returnTypeSize 0 (returned.tokens ++ rest) = front.length := by
      rw [htokens, List.append_assoc, returnTypeSize_append _ hfront, hdepth]
      simp [returnTypeSize, hmark]
    rw [hsize, htokens, List.append_assoc, List.take_left] at hspell
    exact spell_append_ne (text_ne_empty_of_endsReturnType hmark) front back hspell.symm
  refine ⟨hpasses, ?_⟩
  -- At another depth the token behind the type would be read as part of it.
  by_contra hexcess
  obtain ⟨token, tail, rfl, hends⟩ := hrest.ends
  have hsize : returnTypeSize 0 (returned.tokens ++ token :: tail) = returned.tokens.length +
      (returnTypeSize (returned.excess + Bracket.depthChange Bracket.all token) tail + 1) := by
    rw [returnTypeSize_append _ hpasses, returned.depthSum_all, Int.zero_add, Nat.add_comm]
    simp [returnTypeSize, hexcess]
  rw [hsize, List.take_length_add_append, List.take_succ_cons] at hspell
  exact spell_append_ne (text_ne_empty_of_endsReturnType hends) _ _ hspell

end ReturnType

/-! ### Types that end themselves -/

/-- Neither a bracket nor a mark that ends a parameter or a type. -/
structure IsCalm (token : Token) : Prop extends IsInert token where
  noSemicolon : token.isPunct ";" = false

section Calm

variable {token : Token} {front rest : List Token}

theorem isCalm_of_kind_ne (h : token.kind ≠ .punct) : IsCalm token where
  toIsInert := isInert_of_kind_ne h
  noSemicolon := by simp [Token.isPunct, h]

theorem Ident.isCalm (name : Ident) : IsCalm name.1 :=
  isCalm_of_kind_ne (by simp [name.2])

theorem Keyword.isCalm {text : String} (keyword : Keyword text) : IsCalm keyword.1 :=
  isCalm_of_kind_ne (by simp [(Token.isIdent_iff.1 keyword.2).1])

theorem Mark.isCalm {text : String} (mark : Mark text)
    (h : text ∉ "," :: (Bracket.all.map Bracket.opening ++ Bracket.all.map Bracket.closing)) (hsemicolon : text ≠ ";") :
    IsCalm mark.1 where
  toIsInert := mark.isInert h
  noSemicolon := Token.isPunct_eq_false mark.2 hsemicolon

theorem isCalm_of_mem_optional {p : Token → Prop} (written : Option { token // p token })
    (h : ∀ token : { token // p token }, IsCalm token.1) : ∀ token ∈ written.toList.map Subtype.val, IsCalm token := by
  intro token hmem
  obtain ⟨token, -, rfl⟩ := List.mem_map.1 hmem
  exact h token

theorem isCalm_qualifiers (qualifiers : List Qualifier) :
    ∀ token ∈ qualifiers.flatMap Qualifier.tokens, IsCalm token := by
  intro token hmem
  obtain ⟨qualifier, -, htoken⟩ := List.mem_flatMap.1 hmem
  cases qualifier with
  | word word h =>
    have hword : token = word := List.mem_singleton.1 htoken
    obtain ⟨text, -, hident⟩ := h
    exact hword ▸ Keyword.isCalm ⟨word, hident⟩
  | foreign keyword abi =>
    rcases List.mem_cons.1 htoken with rfl | habi
    · exact keyword.isCalm
    · exact isCalm_of_mem_optional abi (fun abi => isCalm_of_kind_ne (by simp [abi.2])) token habi

theorem IsCalm.endsReturnType_eq (h : IsCalm token) : endsReturnType token = token.isIdent "where" := by
  have hbrace : token.isPunct "\x7b" = false := (h.plain .brace (Bracket.mem_all _)).1
  simp [endsReturnType, hbrace, h.noSemicolon]

/-- The walk goes on behind calm tokens other than `where`. -/
theorem passes_calm_append (front : List Token) (hfront : ∀ token ∈ front, IsCalm token)
    (hwhere : ∀ token ∈ front ++ rest, token.isIdent "where" = false)
    (hrest : (∀ token ∈ rest, token.isIdent "where" = false) → Passes Bracket.all endsReturnType 0 rest) :
    Passes Bracket.all endsReturnType 0 (front ++ rest) := by
  induction front with
  | nil => exact hrest hwhere
  | cons token front ih =>
    obtain ⟨htoken, hfront⟩ := List.forall_mem_cons.1 hfront
    obtain ⟨hword, hwhere⟩ := List.forall_mem_cons.1 hwhere
    refine ⟨by simp [htoken.endsReturnType_eq, hword], ?_⟩
    rw [htoken.depthChange_eq_zero]
    exact ih hfront hwhere

end Calm

/-- Within brackets nothing stops the walk. -/
theorem passes_wrap (bracket : Bracket) {opening closing : Token} {inside : List Token}
    (hinside : Nested Bracket.all anywhere inside) (hopens : bracket.opens opening = true)
    (hcloses : bracket.closes closing = true) (hbrace : bracket ≠ .brace) :
    Passes Bracket.all endsReturnType 0 (opening :: (inside ++ [closing])) := by
  have hother {text : String} (hne : bracket.opening ≠ text) : opening.isPunct text = false :=
    Token.isPunct_eq_false hopens hne
  have hident : opening.isIdent "where" = false := by simp [Token.isIdent, (Token.isPunct_iff.1 hopens).1]
  have hends : endsReturnType opening = false := by
    rw [endsReturnType, hident, hother (by cases bracket <;> first | decide | exact absurd rfl hbrace),
      hother (by cases bracket <;> decide)]
    rfl
  have hdeeper : Bracket.depthChange Bracket.all opening = 1 := by
    rw [Bracket.depthChange_of_opens hopens, if_pos bracket.mem_all]
  have hsum := hinside.depthSum_eq_zero (List.Subset.refl Bracket.all)
  refine ⟨by simp [hends], passes_append.2 ⟨hinside.passes_of_pos (List.Subset.refl _) (by omega), ?_, trivial⟩⟩
  omega

theorem passes_append_of_zero {front rest : List Token} (hfront : Passes Bracket.all endsReturnType 0 front)
    (hzero : depthSum Bracket.all front = 0) (hrest : Passes Bracket.all endsReturnType 0 rest) :
    Passes Bracket.all endsReturnType 0 (front ++ rest) := by
  rw [passes_append, hzero]
  exact ⟨hfront, hrest⟩

namespace Phrase

variable {form : Form}

theorem nested_anywhere (phrase : Phrase form)
    (hlengths : ∀ length ∈ phrase.lengths, Nested Bracket.all anywhere length) :
    Nested Bracket.all anywhere phrase.tokens :=
  (phrase.nested (by decide) hlengths).mono fun _ _ => rfl

theorem depthSum_tokens (phrase : Phrase form)
    (hlengths : ∀ length ∈ phrase.lengths, Nested Bracket.all anywhere length) :
    depthSum Bracket.all phrase.tokens = 0 :=
  (phrase.nested_anywhere hlengths).depthSum_eq_zero (List.Subset.refl _)

/-- Where the angle brackets of the lengths are nested, no name but `where` stops the walk. -/
theorem passes_tokens (phrase : Phrase form) (hwhere : ∀ token ∈ phrase.tokens, token.isIdent "where" = false)
    (hlengths : ∀ length ∈ phrase.lengths, Nested Bracket.all anywhere length) :
    Passes Bracket.all endsReturnType 0 phrase.tokens := by
  induction phrase with
  | segment name => exact passes_calm_append [name.1] (by simp [name.isCalm]) hwhere fun _ => trivial
  | rooted mark name =>
    refine passes_calm_append [mark.1, name.1] ?_ hwhere fun _ => trivial
    simp [mark.isCalm (by decide) (by decide), name.isCalm]
  | member front mark name ih =>
    obtain ⟨hfront, hname⟩ := List.forall_mem_append.1 hwhere
    refine passes_append_of_zero (ih hfront hlengths) (front.depthSum_tokens hlengths)
      (passes_calm_append [mark.1, name.1] ?_ hname fun _ => trivial)
    simp [mark.isCalm (by decide) (by decide), name.isCalm]
  | applied front mark opening arguments closing ihfront iharguments =>
    obtain ⟨hfront, hrest⟩ := List.forall_mem_append.1 hwhere
    obtain ⟨hlengths, harguments⟩ := List.forall_mem_append.1 hlengths
    refine passes_append_of_zero (ihfront hfront hlengths) (front.depthSum_tokens hlengths)
      (passes_calm_append _ ?_ hrest fun _ => ?_)
    · exact isCalm_of_mem_optional mark fun mark => Mark.isCalm mark (by decide) (by decide)
    · exact passes_wrap .angle (arguments.nested_anywhere harguments) opening.2 closing.2 (by decide)
  | named path ih => exact ih hwhere hlengths
  | pointer star access target ih =>
    refine passes_calm_append [star.1, access.1] ?_ hwhere (ih · hlengths)
    obtain ⟨text, -, hword⟩ := access.2
    simp [star.isCalm (by decide) (by decide), Keyword.isCalm ⟨access.1, hword⟩]
  | reference ampersand lifetime mutable target ih =>
    have hlifetime := isCalm_of_mem_optional lifetime fun lifetime => isCalm_of_kind_ne (by simp [lifetime.2])
    have hmutable := isCalm_of_mem_optional mutable Keyword.isCalm
    refine passes_calm_append [ampersand.1] (by simp [ampersand.isCalm (by decide) (by decide)]) hwhere fun hrest => ?_
    exact passes_calm_append _ hlifetime hrest fun hrest => passes_calm_append _ hmutable hrest (ih · hlengths)
  | tuple opening elements closing ih =>
    exact passes_wrap .paren (elements.nested_anywhere hlengths) opening.2 closing.2 (by decide)
  | function qualifiers keyword opening inputs closing output ihinputs ihoutput =>
    obtain ⟨hinputs, houtput⟩ := List.forall_mem_append.1 hlengths
    have hgroup := passes_wrap .paren (inputs.nested_anywhere hinputs) opening.2 closing.2 (by decide)
    refine passes_calm_append _ (isCalm_qualifiers qualifiers) hwhere fun hrest => ?_
    refine passes_calm_append [keyword.1] (by simp [keyword.isCalm]) hrest fun hrest => ?_
    have hafter : ∀ token ∈ (opening.1 :: (inputs.tokens ++ [closing.1])) ++ output.tokens,
        token.isIdent "where" = false := hrest
    have hnested : Nested Bracket.all anywhere (opening.1 :: (inputs.tokens ++ [closing.1])) :=
      .group (Bracket.mem_all .paren) opening.2 rfl (inputs.nested_anywhere hinputs) closing.2 .nil
    exact passes_append_of_zero hgroup (hnested.depthSum_eq_zero (List.Subset.refl _))
      (ihoutput (List.forall_mem_append.1 hafter).2 houtput)
  | slice opening element closing ih =>
    exact passes_wrap .square (element.nested_anywhere hlengths) opening.2 closing.2 (by decide)
  | array opening element mark length nested closing ih =>
    obtain ⟨helement, hlength⟩ := List.forall_mem_append.1 hlengths
    have hmark : IsPlain Bracket.all mark.1 := isPlain_of_isPunct mark.2 (by decide)
    have hbetween : Nested Bracket.all anywhere (element.tokens ++ mark.1 :: length) :=
      (element.nested_anywhere helement).append (.plain hmark rfl (List.forall_mem_singleton.1 hlength))
    exact passes_wrap .square hbetween opening.2 closing.2 (by decide)
  | plain type ih => exact ih hwhere hlengths
  | labelled name colon type ih =>
    refine passes_calm_append [name.1, colon.1] ?_ hwhere (ih · hlengths)
    simp [name.isCalm, colon.isCalm (by decide) (by decide)]
  | nothing => trivial
  | returns arrow type ih =>
    exact passes_calm_append [arrow.1] (by simp [arrow.isCalm (by decide) (by decide)]) hwhere (ih · hlengths)
  | empty => trivial
  | last element ih => exact ih hwhere hlengths
  | more element comma rest ihelement ihrest =>
    obtain ⟨hfront, hback⟩ := List.forall_mem_append.1 hwhere
    obtain ⟨hword, hrest⟩ := List.forall_mem_cons.1 hback
    obtain ⟨helement, hlengths⟩ := List.forall_mem_append.1 hlengths
    -- A comma in a list separates at depth zero, so it is no calm token, but it ends no type.
    have hends : endsReturnType comma.1 = false := by
      simp [endsReturnType, hword, Token.isPunct_eq_false comma.2]
    refine passes_append_of_zero (ihelement hfront helement) (element.depthSum_tokens helement) ⟨by simp [hends], ?_⟩
    rw [(comma_isPlain comma.2).depthChange_eq_zero (List.Subset.refl _)]
    exact ihrest hrest hlengths

/-- A type ends itself where the angle brackets in each length of an array are nested by themselves, unless one of its
names is `where`. -/
theorem endsItself_of_nested (type : Phrase .type) (hwhere : ∀ token ∈ type.tokens, token.isIdent "where" = false)
    (hlengths : ∀ length ∈ type.lengths, Nested Bracket.all anywhere length) : type.EndsItself :=
  ⟨type.passes_tokens hwhere hlengths, (type.hidesCommas_of_nested hlengths).2⟩

end Phrase

/-! ### Functions and what follows them -/

/-- A function with a return type and a body in braces. Between its parentheses stand any tokens in which the delimiters
are nested. -/
structure TypedFunction where
  lead : Lead
  keyword : Keyword "fn"
  name : Ident
  opening : Mark "("
  inside : List Token
  nested : Nested Bracket.delimiters anywhere inside
  closing : Mark ")"
  arrow : Mark "->"
  returned : Phrase .type
  body : Group .brace [.brace]

namespace TypedFunction

def tokens (function : TypedFunction) : List Token :=
  function.lead.tokens ++ function.keyword.1 :: function.name.1 :: function.opening.1 ::
    (function.inside ++ function.closing.1 :: function.arrow.1 :: (function.returned.tokens ++ function.body.tokens))

def plainName (function : TypedFunction) : String :=
  Signature.plainName function.name.1.text

def meaning (function : TypedFunction) (parameters : List Rust.Parameter) : ExportedFunction where
  name := function.plainName
  parameters := parameters
  returnType := spell function.returned.tokens
  line := function.keyword.1.line

variable {function : TypedFunction} {found : List Rust.Parameter}

/-- The parameters are read as told. -/
def Reads (function : TypedFunction) (found : List Rust.Parameter) : Prop :=
  readParameters function.plainName 1 (splitTopLevel "," function.inside) = .ok found

/-- What is left to read of an exported function when its parameters have been read. -/
theorem step_keyword (hexports : function.lead.modifiers.exports = true) (hreads : function.Reads found)
    (rest : List Token) :
    Item.step function.lead.modifiers function.keyword.1 (function.name.1 :: function.opening.1 ::
        (function.inside ++ function.closing.1 :: function.arrow.1 ::
          (function.returned.tokens ++ (function.body.tokens ++ rest)))) = (do
      let (returnType, left) ← readReturnType function.plainName function.keyword.1.line
        (function.arrow.1 :: (function.returned.tokens ++ (function.body.tokens ++ rest)))
      let left ← skipBody function.plainName function.keyword.1.line (skipWhereClause left)
      return ⟨{}, left, some (.exported { function.meaning found with returnType })⟩) := by
  have hnamed := readNamed_eq none function.opening function.nested (by decide) function.closing function.plainName
    function.keyword.1.line (function.arrow.1 :: (function.returned.tokens ++ (function.body.tokens ++ rest)))
  rw [hreads] at hnamed
  have hident : (function.name.1.kind == .ident) = true := by simp [function.name.2]
  rw [step_fn function.keyword.2, Item.function, Signature.read?, if_pos hident]
  rw [Option.elim_none, List.nil_append, plainName] at hnamed
  rw [hnamed]
  cases hreturn : readReturnType (Signature.plainName function.name.1.text) function.keyword.1.line
      (function.arrow.1 :: (function.returned.tokens ++ (function.body.tokens ++ rest))) with
  | error error => simp [bind, Except.bind, plainName, hreturn]
  | ok returned =>
    cases hbody : skipBody (Signature.plainName function.name.1.text) function.keyword.1.line
        (skipWhereClause returned.2) with
    | error error => simp [bind, Except.bind, plainName, hreturn, hbody]
    | ok left => simp [bind, Except.bind, pure, Except.pure, plainName, hreturn, hbody, hexports, meaning]

theorem ofTokens_append (function : TypedFunction) (rest : List Token) :
    Survey.ofTokens (function.tokens ++ rest) =
      Survey.ofTokensFrom function.lead.modifiers (function.keyword.1 :: function.name.1 :: function.opening.1 ::
        (function.inside ++ function.closing.1 :: function.arrow.1 ::
          (function.returned.tokens ++ (function.body.tokens ++ rest)))) := by
  simp only [tokens, List.append_assoc, List.cons_append]
  exact ofTokensFrom_lead _ ⟨_, _, rfl, (Token.isIdent_iff.1 function.keyword.2).1⟩

/-- Behind a type that ends itself the body is passed over, and what comes then is read as if it stood alone. -/
theorem ofTokens_of_endsItself (hexports : function.lead.modifiers.exports = true) (hreads : function.Reads found)
    (h : function.returned.EndsItself) (rest : List Token) :
    Survey.ofTokens (function.tokens ++ rest) =
      (Survey.ofTokens rest).after [.exported (function.meaning found)] := by
  have hreturn : readReturnType function.plainName function.keyword.1.line
      (function.arrow.1 :: (function.returned.tokens ++ ((Body.block function.body).tokens ++ rest))) = _ :=
    readReturnType_phrase h ((Body.block function.body).endsSignature rest)
  have hclause := skipWhereClause_written none (.block function.body) rest
  have hbody := skipBody_written (.block function.body) function.plainName function.keyword.1.line rest
  have hstep := step_keyword hexports hreads rest
  rw [Body.tokens] at hreturn hclause hbody
  rw [Option.elim_none, List.nil_append] at hclause
  rw [hreturn] at hstep
  simp only [bind, Except.bind, hclause, hbody] at hstep
  rw [ofTokens_append, Survey.ofTokensFrom_cons hstep]
  rfl

/-- Whatever is found behind it, a function that is found as it is written has a type that ends itself. -/
theorem endsItself_of_functions (hexports : function.lead.modifiers.exports = true) (hreads : function.Reads found)
    {rest : List Token} {more : List ExportedFunction}
    (h : (Survey.ofTokens (function.tokens ++ rest)).functions = .ok (function.meaning found :: more)) :
    function.returned.EndsItself := by
  rw [ofTokens_append] at h
  obtain ⟨step, later, hstep, -, hfound⟩ := Survey.exists_step_of_functions h
  rw [step_keyword hexports hreads rest] at hstep
  cases hreturn : readReturnType function.plainName function.keyword.1.line
      (function.arrow.1 :: (function.returned.tokens ++ (function.body.tokens ++ rest))) with
  | error error => exact absurd hstep (by simp [hreturn, bind, Except.bind])
  | ok returned =>
    obtain ⟨text, left⟩ := returned
    simp only [hreturn, bind, Except.bind] at hstep
    split at hstep
    · exact absurd hstep (by simp)
    · obtain rfl := Except.ok.inj hstep
      obtain rfl : spell function.returned.tokens = text :=
        congrArg ExportedFunction.returnType (List.cons.inj hfound).1
      exact endsItself_of_readReturnType ((Body.block function.body).endsSignature rest) hreturn

end TypedFunction

/-- An exported function is found with the type that is written exactly if its type ends itself, and then the items
behind it are found as they are written. That is so where the angle brackets in each length of an array are nested by
themselves and no name in the type is `where`. -/
theorem returned_typed {function : TypedFunction} {found : List Rust.Parameter}
    (hexports : function.lead.modifiers.exports = true) (hreads : function.Reads found) (items : Items) :
    ((∃ more, (Survey.ofTokens (function.tokens ++ items.tokens)).functions =
        .ok (function.meaning found :: more)) ↔ function.returned.EndsItself) ∧
    (function.returned.EndsItself →
      (Survey.ofTokens (function.tokens ++ items.tokens)).functions =
          .ok (function.meaning found :: items.exports) ∧
        ∀ source, Rust.tokens source = .ok (function.tokens ++ items.tokens) →
          exportedFunctions source = .ok (function.meaning found :: items.exports)) ∧
    ((∀ token ∈ function.returned.tokens, token.isIdent "where" = false) →
      (∀ length ∈ function.returned.lengths, Nested Bracket.all anywhere length) → function.returned.EndsItself) := by
  have hexact (h : function.returned.EndsItself) :
      (Survey.ofTokens (function.tokens ++ items.tokens)).functions =
        .ok (function.meaning found :: items.exports) := by
    rw [TypedFunction.ofTokens_of_endsItself hexports hreads h, Survey.functions_after,
      Survey.functions_items]
    rfl
  refine ⟨⟨?_, fun h => ⟨_, hexact h⟩⟩, fun h => ⟨hexact h, ?_⟩, function.returned.endsItself_of_nested⟩
  · rintro ⟨more, hmore⟩
    exact TypedFunction.endsItself_of_functions hexports hreads hmore
  · intro source htokens
    rw [exportedFunctions_eq htokens, hexact h]

end Grammar

open Grammar

namespace Sample

/-- A function whose parameters and whose return type are arrays with shifts in their lengths. -/
def shifting : TypedFunction where
  lead := function.lead
  keyword := ⟨word "fn", isIdent_word "fn"⟩
  name := ⟨word "f", rfl⟩
  opening := ⟨mark "(", isPunct_mark "("⟩
  inside := (pair shiftedBack shifted).tokens
  nested := (pair shiftedBack shifted).nested_tokens
  closing := ⟨mark ")", isPunct_mark ")"⟩
  arrow := ⟨mark "->", isPunct_mark "->"⟩
  returned := shiftedBack
  body := ⟨mark "\x7b", [], mark "\x7d", isPunct_mark "\x7b", .nil, isPunct_mark "\x7d"⟩

end Sample

open Sample

/-- The two shifts of the type make up for one another, so the function in the module behind is found as well. -/
theorem returned_typed_shifting :
    shifting.lead.modifiers.exports = true ∧
      shifting.Reads [⟨"[u8; 4>>1<<1]", "a"⟩, ⟨"[u8; 1<<2]", "b"⟩] ∧ shifting.returned.EndsItself ∧
      (Survey.ofTokens (shifting.tokens ++ items.tokens)).functions =
        .ok [⟨"f", [⟨"[u8; 4>>1<<1]", "a"⟩, ⟨"[u8; 1<<2]", "b"⟩], "[u8; 4>>1<<1]", 1⟩,
          ⟨"go", [⟨"u8", "x"⟩], "u8", 1⟩] := by
  have hexports : shifting.lead.modifiers.exports = true := by decide +kernel
  have hreads : readParameters shifting.plainName 1 (splitTopLevel "," shifting.inside) =
      .ok [⟨"[u8; 4>>1<<1]", "a"⟩, ⟨"[u8; 1<<2]", "b"⟩] := by decide +kernel
  have hends : shifting.returned.EndsItself := by decide +kernel
  refine ⟨hexports, hreads, hends, ((returned_typed hexports hreads items).2.1 hends).1.trans ?_⟩
  decide +kernel

/-- A shift in the length of an array hides the body behind it, and the type swallows the rest of the source. -/
theorem return_type_runs_on :
    tokens "[u8; 1 << 2]" = .ok shifted.tokens ∧ spell shifted.tokens = "[u8; 1<<2]" ∧
      exportedFunctions "#[no_mangle] pub fn f() -> [u8; 1 << 2] \x7b\x7d #[no_mangle] pub fn g() \x7b\x7d" =
        .ok [⟨"f", [], "[u8; 1<<2]\x7b\x7d#[no_mangle]pub fn g()\x7b\x7d", 1⟩] := by
  decide +kernel

end FfiBindings.Rust
