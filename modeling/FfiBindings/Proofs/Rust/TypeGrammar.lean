import FfiBindings.Proofs.Rust.Signature

/-!
A grammar of types. A `Phrase` is a tree of paths with argument lists, pointers, references, tuples, function pointers,
slices and arrays. The length of an array is a run of tokens in which the delimiters are properly nested, so a `<` or
`>` in it may well be an operator. The delimiters of a phrase are always nested (`Phrase.nested`), and where the angle
brackets of every length are nested too, so are those of the phrase. In any case the brackets of a phrase add up to what
its lengths have more of `<` than of `>` (`Phrase.depthSum_all`).
-/

set_option autoImplicit false
set_option relaxedAutoImplicit false

namespace FfiBindings.Rust

/-! ### Delimiters and angle brackets apart -/

@[simp] theorem depthSum_nil (among : List Bracket) : depthSum among [] = 0 := rfl

@[simp] theorem depthSum_cons (among : List Bracket) (token : Token) (tokens : List Token) :
    depthSum among (token :: tokens) = Bracket.depthChange among token + depthSum among tokens := by
  simp [depthSum]

@[simp] theorem depthSum_append (among : List Bracket) (tokens more : List Token) :
    depthSum among (tokens ++ more) = depthSum among tokens + depthSum among more := by
  simp [depthSum]

theorem Bracket.depthChange_all (token : Token) :
    depthChange all token = depthChange delimiters token + depthChange [.angle] token := by
  by_cases hopens : ∃ bracket : Bracket, bracket.opens token = true
  · obtain ⟨bracket, hopens⟩ := hopens
    simp only [depthChange_of_opens hopens]
    cases bracket <;> rfl
  by_cases hcloses : ∃ bracket : Bracket, bracket.closes token = true
  · obtain ⟨bracket, hcloses⟩ := hcloses
    simp only [depthChange_of_closes hcloses]
    cases bracket <;> rfl
  · have hplain : IsPlain all token := by
      intro bracket _
      exact ⟨Bool.not_eq_true _ ▸ not_exists.1 hopens bracket, Bool.not_eq_true _ ▸ not_exists.1 hcloses bracket⟩
    have hzero {among : List Bracket} (hsub : among ⊆ all) : depthChange among token = 0 :=
      hplain.depthChange_eq_zero hsub
    rw [hzero (List.Subset.refl all), hzero (by decide), hzero (by decide)]
    rfl

theorem depthSum_all (tokens : List Token) :
    depthSum Bracket.all tokens = depthSum Bracket.delimiters tokens + depthSum [.angle] tokens := by
  induction tokens with
  | nil => rfl
  | cons token tokens ih =>
    simp only [depthSum_cons, ih, Bracket.depthChange_all token]
    omega

theorem Bracket.mem_all (bracket : Bracket) : bracket ∈ all := by
  cases bracket <;> decide

/-! ### Tokens that neither group nor separate -/

/-- Neither a bracket of any kind nor a comma. -/
structure IsInert (token : Token) : Prop where
  plain : IsPlain Bracket.all token
  noComma : token.isPunct "," = false

section Inert

variable {token : Token} {text : String}

theorem isInert_of_kind_ne (h : token.kind ≠ .punct) : IsInert token where
  plain := isPlain_of_kind_ne h
  noComma := by simp [Token.isPunct, h]

theorem isInert_of_isPunct (h : token.isPunct text = true) (hcomma : text ≠ ",")
    (hmark : ∀ bracket ∈ Bracket.all, text ≠ bracket.opening ∧ text ≠ bracket.closing) : IsInert token where
  plain := isPlain_of_isPunct h hmark
  noComma := Token.isPunct_eq_false h hcomma

theorem IsInert.isPlain (h : IsInert token) (among : List Bracket) : IsPlain among token :=
  fun bracket _ => h.plain bracket bracket.mem_all

theorem IsInert.depthChange_eq_zero (h : IsInert token) (among : List Bracket) :
    Bracket.depthChange among token = 0 :=
  (h.isPlain among).depthChange_eq_zero (List.Subset.refl among)

end Inert

theorem depthSum_of_inert {tokens : List Token} (h : ∀ token ∈ tokens, IsInert token) (among : List Bracket) :
    depthSum among tokens = 0 := by
  induction tokens with
  | nil => rfl
  | cons token tokens ih =>
    obtain ⟨htoken, htokens⟩ := List.forall_mem_cons.1 h
    rw [depthSum_cons, htoken.depthChange_eq_zero among, ih htokens, Int.add_zero]

namespace Nested

variable {among : List Bracket} {outer : Token → Bool} {tokens : List Token}

theorem of_plain (h : ∀ token ∈ tokens, IsPlain among token) : Nested among anywhere tokens := by
  induction tokens with
  | nil => exact .nil
  | cons token tokens ih =>
    obtain ⟨htoken, htokens⟩ := List.forall_mem_cons.1 h
    exact .plain htoken rfl (ih htokens)

theorem of_inert (h : ∀ token ∈ tokens, IsInert token)
    (houter : ∀ token, token.isPunct "," = false → outer token = true) : Nested among outer tokens := by
  induction tokens with
  | nil => exact .nil
  | cons token tokens ih =>
    obtain ⟨htoken, htokens⟩ := List.forall_mem_cons.1 h
    exact .plain (htoken.isPlain among) (houter token htoken.noComma) (ih htokens)

end Nested

namespace Grammar

theorem Ident.isInert (name : Ident) : IsInert name.1 :=
  isInert_of_kind_ne (by simp [name.2])

theorem Keyword.isInert {text : String} (keyword : Keyword text) : IsInert keyword.1 :=
  isInert_of_kind_ne (by simp [(Token.isIdent_iff.1 keyword.2).1])

theorem Mark.isInert {text : String} (mark : Mark text)
    (h : text ∉ "," :: (Bracket.all.map Bracket.opening ++ Bracket.all.map Bracket.closing)) : IsInert mark.1 := by
  simp only [List.mem_cons, List.mem_append, not_or] at h
  obtain ⟨hcomma, hopening, hclosing⟩ := h
  refine isInert_of_isPunct mark.2 hcomma ?_
  intro bracket hmem
  exact ⟨fun heq => hopening (heq ▸ List.mem_map_of_mem hmem), fun heq => hclosing (heq ▸ List.mem_map_of_mem hmem)⟩

theorem isInert_of_mem_optional {p : Token → Prop} (written : Option { token // p token })
    (h : ∀ token : { token // p token }, IsInert token.1) :
    ∀ token ∈ written.toList.map Subtype.val, IsInert token := by
  intro token hmem
  obtain ⟨token, -, rfl⟩ := List.mem_map.1 hmem
  exact h token

theorem Qualifier.isInert (qualifier : Qualifier) : ∀ token ∈ qualifier.tokens, IsInert token := by
  cases qualifier with
  | word token h =>
    obtain ⟨text, -, hword⟩ := h
    exact List.forall_mem_singleton.2 (Keyword.isInert ⟨token, hword⟩)
  | foreign keyword abi =>
    refine List.forall_mem_cons.2 ⟨keyword.isInert, isInert_of_mem_optional abi fun abi => ?_⟩
    exact isInert_of_kind_ne (by simp [abi.2])

theorem isInert_qualifiers (qualifiers : List Qualifier) :
    ∀ token ∈ qualifiers.flatMap Qualifier.tokens, IsInert token := by
  intro token hmem
  obtain ⟨qualifier, -, htoken⟩ := List.mem_flatMap.1 hmem
  exact qualifier.isInert token htoken

/-! ### Phrases -/

abbrev Lifetime := { token : Token // token.kind = .lifetime }

/-- What a raw pointer lets one do with its target. -/
abbrev Access := { token : Token // ∃ text ∈ ["const", "mut"], token.isIdent text = true }

theorem Lifetime.isInert (lifetime : Lifetime) : IsInert lifetime.1 :=
  isInert_of_kind_ne (by simp [lifetime.2])

theorem Access.isInert (access : Access) : IsInert access.1 := by
  obtain ⟨text, -, hword⟩ := access.2
  exact Keyword.isInert ⟨access.1, hword⟩

/-- The forms that the phrases of a type have. -/
inductive Form where
  | path
  | type
  | input
  | output
  | list (of : Form)

inductive Phrase : Form → Type where
  | segment (name : Ident) : Phrase .path
  | rooted (mark : Mark "::") (name : Ident) : Phrase .path
  | member (front : Phrase .path) (mark : Mark "::") (name : Ident) : Phrase .path
  | applied (front : Phrase .path) (mark : Option (Mark "::")) (opening : Mark "<")
      (arguments : Phrase (.list .type)) (closing : Mark ">") : Phrase .path
  | named (path : Phrase .path) : Phrase .type
  | pointer (star : Mark "*") (access : Access) (target : Phrase .type) : Phrase .type
  | reference (ampersand : Mark "&") (lifetime : Option Lifetime) (mutable : Option (Keyword "mut"))
      (target : Phrase .type) : Phrase .type
  | tuple (opening : Mark "(") (elements : Phrase (.list .type)) (closing : Mark ")") : Phrase .type
  | function (qualifiers : List Qualifier) (keyword : Keyword "fn") (opening : Mark "(")
      (inputs : Phrase (.list .input)) (closing : Mark ")") (output : Phrase .output) : Phrase .type
  | slice (opening : Mark "[") (element : Phrase .type) (closing : Mark "]") : Phrase .type
  | array (opening : Mark "[") (element : Phrase .type) (mark : Mark ";") (length : List Token)
      (nested : Nested Bracket.delimiters anywhere length) (closing : Mark "]") : Phrase .type
  | plain (type : Phrase .type) : Phrase .input
  | labelled (name : Ident) (colon : Mark ":") (type : Phrase .type) : Phrase .input
  | nothing : Phrase .output
  | returns (arrow : Mark "->") (type : Phrase .type) : Phrase .output
  | empty {of : Form} : Phrase (.list of)
  | last {of : Form} (element : Phrase of) : Phrase (.list of)
  | more {of : Form} (element : Phrase of) (comma : Mark ",") (rest : Phrase (.list of)) : Phrase (.list of)

namespace Phrase

def tokens : {form : Form} → Phrase form → List Token
  | _, .segment name => [name.1]
  | _, .rooted mark name => [mark.1, name.1]
  | _, .member front mark name => front.tokens ++ [mark.1, name.1]
  | _, .applied front mark opening arguments closing =>
    front.tokens ++ (mark.toList.map Subtype.val ++ opening.1 :: (arguments.tokens ++ [closing.1]))
  | _, .named path => path.tokens
  | _, .pointer star access target => star.1 :: access.1 :: target.tokens
  | _, .reference ampersand lifetime mutable target =>
    ampersand.1 :: (lifetime.toList.map Subtype.val ++ (mutable.toList.map Subtype.val ++ target.tokens))
  | _, .tuple opening elements closing => opening.1 :: (elements.tokens ++ [closing.1])
  | _, .function qualifiers keyword opening inputs closing output =>
    qualifiers.flatMap Qualifier.tokens ++
      keyword.1 :: ((opening.1 :: (inputs.tokens ++ [closing.1])) ++ output.tokens)
  | _, .slice opening element closing => opening.1 :: (element.tokens ++ [closing.1])
  | _, .array opening element mark length _ closing =>
    opening.1 :: ((element.tokens ++ mark.1 :: length) ++ [closing.1])
  | _, .plain type => type.tokens
  | _, .labelled name colon type => name.1 :: colon.1 :: type.tokens
  | _, .nothing => []
  | _, .returns arrow type => arrow.1 :: type.tokens
  | _, .empty => []
  | _, .last element => element.tokens
  | _, .more element comma rest => element.tokens ++ comma.1 :: rest.tokens

/-- The lengths of the arrays in a phrase. -/
def lengths : {form : Form} → Phrase form → List (List Token)
  | _, .segment _ => []
  | _, .rooted _ _ => []
  | _, .nothing => []
  | _, .empty => []
  | _, .member front _ _ => front.lengths
  | _, .applied front _ _ arguments _ => front.lengths ++ arguments.lengths
  | _, .named path => path.lengths
  | _, .pointer _ _ target => target.lengths
  | _, .reference _ _ _ target => target.lengths
  | _, .tuple _ elements _ => elements.lengths
  | _, .function _ _ _ inputs _ output => inputs.lengths ++ output.lengths
  | _, .slice _ element _ => element.lengths
  | _, .array _ element _ length _ _ => element.lengths ++ [length]
  | _, .plain type => type.lengths
  | _, .labelled _ _ type => type.lengths
  | _, .returns _ type => type.lengths
  | _, .last element => element.lengths
  | _, .more element _ rest => element.lengths ++ rest.lengths

/-- By how much `<` outnumbers `>` in the lengths of the arrays. -/
def excess {form : Form} (phrase : Phrase form) : Int :=
  (phrase.lengths.map (depthSum [.angle])).sum

theorem path_ne_nil (path : Phrase .path) : path.tokens ≠ [] := by
  cases path <;> simp [tokens]

theorem type_ne_nil (type : Phrase .type) : type.tokens ≠ [] := by
  cases type with
  | named path => exact path.path_ne_nil
  | _ => simp [tokens]

/-! ### Brackets of a phrase -/

variable {among : List Bracket} {form : Form}

theorem nested_lengths (phrase : Phrase form) :
    ∀ length ∈ phrase.lengths, Nested Bracket.delimiters anywhere length := by
  induction phrase with
  | segment | rooted | nothing | empty => exact List.forall_mem_nil _
  | member _ _ _ ih | named _ ih | pointer _ _ _ ih | reference _ _ _ _ ih | tuple _ _ _ ih | slice _ _ _ ih
  | plain _ ih | labelled _ _ _ ih | returns _ _ ih | last _ ih => exact ih
  | applied _ _ _ _ _ ihfront ihrest | function _ _ _ _ _ _ ihfront ihrest | more _ _ _ ihfront ihrest =>
    exact List.forall_mem_append.2 ⟨ihfront, ihrest⟩
  | array _ _ _ _ nested _ ih => exact List.forall_mem_append.2 ⟨ih, List.forall_mem_singleton.2 nested⟩

/-- What may stand outside all brackets: where angle brackets group, commas do so in lists alone. -/
def outside (among : List Bracket) : Form → Token → Bool
  | .list _ => anywhere
  | _ => fun token => !(decide (.angle ∈ among) && token.isPunct ",")

theorem outside_of_noComma (among : List Bracket) (form : Form) {token : Token} (h : token.isPunct "," = false) :
    outside among form token = true := by
  cases form with
  | list of => rfl
  | _ => simp [outside, h]

theorem outside_of_notMem (form : Form) (h : .angle ∉ among) : outside among form = anywhere := by
  cases form with
  | list of => rfl
  | _ => funext token; simp [outside, anywhere, h]

theorem nested_inert_append (front : List Token) {rest : List Token} (hfront : ∀ token ∈ front, IsInert token)
    (hrest : Nested among (outside among form) rest) : Nested among (outside among form) (front ++ rest) :=
  (Nested.of_inert hfront fun _ hcomma => outside_of_noComma among form hcomma).append hrest

theorem nested_wrap {bracket : Bracket} {opening closing : Token} {inside : List Token} {outer : Token → Bool}
    (hinside : Nested among outer inside) (hmem : bracket ∈ among) (hopens : bracket.opens opening = true)
    (hcloses : bracket.closes closing = true) :
    Nested among (outside among form) (opening :: (inside ++ [closing])) := by
  have hcomma : opening.isPunct "," = false := Token.isPunct_eq_false hopens (by cases bracket <;> decide)
  exact .group hmem hopens (outside_of_noComma among form hcomma) (hinside.mono fun _ _ => rfl) hcloses .nil

/-- Angle brackets are nested around arguments whether they count or not. -/
theorem nested_angles {inside : List Token} (opening : Mark "<") (closing : Mark ">")
    (hinside : Nested among anywhere inside) :
    Nested among (outside among form) (opening.1 :: (inside ++ [closing.1])) := by
  by_cases hangle : .angle ∈ among
  · exact nested_wrap hinside hangle opening.2 closing.2
  · have hplain {token : Token} (h : Bracket.angle.opens token = true ∨ Bracket.angle.closes token = true) :
        IsPlain among token := by
      intro bracket hmem
      have hne : bracket ≠ .angle := fun heq => hangle (heq ▸ hmem)
      rcases h with hopens | hcloses
      · exact ⟨Bool.eq_false_iff.2 fun hother => hne (Bracket.eq_of_opens hother hopens),
          Bracket.closes_eq_false_of_opens hopens⟩
      · exact ⟨Bracket.opens_eq_false_of_closes hcloses,
          Bool.eq_false_iff.2 fun hother => hne (Bracket.eq_of_closes hother hcloses)⟩
    rw [outside_of_notMem form hangle]
    exact .plain (hplain (.inl opening.2)) rfl (hinside.append (.plain (hplain (.inr closing.2)) rfl .nil))

/-- Whichever kinds of brackets count besides the delimiters, they are nested in a phrase when they are in the lengths
of its arrays. -/
theorem nested (hall : Bracket.delimiters ⊆ among) (phrase : Phrase form)
    (hlengths : ∀ length ∈ phrase.lengths, Nested among anywhere length) :
    Nested among (outside among form) phrase.tokens := by
  have hparen : .paren ∈ among := hall (by decide)
  have hsquare : .square ∈ among := hall (by decide)
  induction phrase with
  | segment name => exact nested_inert_append [name.1] (List.forall_mem_singleton.2 name.isInert) .nil
  | rooted mark name =>
    refine nested_inert_append [mark.1, name.1] ?_ .nil
    simp [mark.isInert (by decide), name.isInert]
  | member front mark name ih =>
    refine (ih hlengths).append (nested_inert_append [mark.1, name.1] ?_ .nil)
    simp [mark.isInert (by decide), name.isInert]
  | applied front mark opening arguments closing ihfront iharguments =>
    obtain ⟨hfront, harguments⟩ := List.forall_mem_append.1 hlengths
    refine (ihfront hfront).append (nested_inert_append _ ?_ (nested_angles opening closing (iharguments harguments)))
    exact isInert_of_mem_optional mark fun mark => Mark.isInert mark (by decide)
  | named path ih => exact ih hlengths
  | pointer star access target ih =>
    refine nested_inert_append [star.1, access.1] ?_ (ih hlengths)
    simp [star.isInert (by decide), access.isInert]
  | reference ampersand lifetime mutable target ih =>
    have hlifetime := isInert_of_mem_optional lifetime Lifetime.isInert
    have hmutable := isInert_of_mem_optional mutable Keyword.isInert
    exact nested_inert_append [ampersand.1] (by simp [ampersand.isInert (by decide)])
      (nested_inert_append _ hlifetime (nested_inert_append _ hmutable (ih hlengths)))
  | tuple opening elements closing ih => exact nested_wrap (ih hlengths) hparen opening.2 closing.2
  | function qualifiers keyword opening inputs closing output ihinputs ihoutput =>
    obtain ⟨hinputs, houtput⟩ := List.forall_mem_append.1 hlengths
    have hsignature := (nested_wrap (ihinputs hinputs) hparen opening.2 closing.2).append (ihoutput houtput)
    exact nested_inert_append _ (isInert_qualifiers qualifiers)
      (nested_inert_append [keyword.1] (by simp [keyword.isInert]) hsignature)
  | slice opening element closing ih => exact nested_wrap (ih hlengths) hsquare opening.2 closing.2
  | array opening element mark length nested closing ih =>
    obtain ⟨helement, hlength⟩ := List.forall_mem_append.1 hlengths
    have hinside : Nested among anywhere (element.tokens ++ mark.1 :: length) :=
      ((ih helement).mono fun _ _ => rfl).append
        (.plain ((mark.isInert (by decide)).isPlain among) rfl (List.forall_mem_singleton.1 hlength))
    exact nested_wrap hinside hsquare opening.2 closing.2
  | plain type ih => exact ih hlengths
  | labelled name colon type ih =>
    refine nested_inert_append [name.1, colon.1] ?_ (ih hlengths)
    simp [name.isInert, colon.isInert (by decide)]
  | nothing => exact .nil
  | returns arrow type ih =>
    exact nested_inert_append [arrow.1] (by simp [arrow.isInert (by decide)]) (ih hlengths)
  | empty => exact .nil
  | last element ih => exact (ih hlengths).mono fun _ _ => rfl
  | more element comma rest ihelement ihrest =>
    obtain ⟨helement, hrest⟩ := List.forall_mem_append.1 hlengths
    have hcomma : IsPlain among comma.1 := isPlain_of_isPunct comma.2 (by decide)
    exact ((ihelement helement).mono fun _ _ => rfl).append (.plain hcomma rfl (ihrest hrest))

/-! ### Angle brackets that are operators -/

@[simp] theorem depthChange_mark {text : String} (mark : Mark text) :
    Bracket.depthChange [.angle] mark.1 = if text = "<" then 1 else if text = ">" then -1 else 0 := by
  obtain ⟨token, h⟩ := mark
  obtain ⟨hkind, rfl⟩ := Token.isPunct_iff.1 h
  simp [Bracket.depthChange, Bracket.opens, Bracket.closes, Token.isPunct, hkind, Bracket.opening, Bracket.closing]

/-- The angle brackets of argument lists cancel out. -/
theorem depthSum_angle (phrase : Phrase form) : depthSum [.angle] phrase.tokens = phrase.excess := by
  have hword {token : Token} (h : IsInert token) : Bracket.depthChange [.angle] token = 0 := h.depthChange_eq_zero _
  have hwords {words : List Token} (h : ∀ token ∈ words, IsInert token) : depthSum [.angle] words = 0 :=
    depthSum_of_inert h _
  unfold excess
  induction phrase with
  | segment name => simp [tokens, lengths, hword name.isInert]
  | rooted mark name => simp [tokens, lengths, hword name.isInert]
  | member front mark name ih => simp [tokens, lengths, hword name.isInert, ih]
  | applied front mark opening arguments closing ihfront iharguments =>
    have hmark := hwords (isInert_of_mem_optional mark fun mark => Mark.isInert mark (by decide))
    simp only [tokens, depthSum_append, hmark]
    simp [lengths, ihfront, iharguments]
  | named path ih => exact ih
  | pointer star access target ih => simp [tokens, lengths, hword access.isInert, ih]
  | reference ampersand lifetime mutable target ih =>
    have hlifetime := hwords (isInert_of_mem_optional lifetime Lifetime.isInert)
    have hmutable := hwords (isInert_of_mem_optional mutable Keyword.isInert)
    simp only [tokens, depthSum_cons, depthSum_append, hlifetime, hmutable]
    simp [lengths, ih]
  | tuple opening elements closing ih => simp [tokens, lengths, ih]
  | function qualifiers keyword opening inputs closing output ihinputs ihoutput =>
    have hqualifiers := hwords (isInert_qualifiers qualifiers)
    simp [tokens, lengths, hqualifiers, hword keyword.isInert, ihinputs, ihoutput]
  | slice opening element closing ih => simp [tokens, lengths, ih]
  | array opening element mark length nested closing ih => simp [tokens, lengths, ih]
  | plain type ih => exact ih
  | labelled name colon type ih => simp [tokens, lengths, hword name.isInert, ih]
  | nothing => rfl
  | returns arrow type ih => simp [tokens, lengths, ih]
  | empty => rfl
  | last element ih => exact ih
  | more element comma rest ihelement ihrest => simp [tokens, lengths, ihelement, ihrest]

/-- As far as brackets go, a phrase changes the depth by what its lengths have more of `<` than of `>`. -/
theorem depthSum_all (phrase : Phrase form) : depthSum Bracket.all phrase.tokens = phrase.excess := by
  have hnested : Nested Bracket.delimiters (outside Bracket.delimiters form) phrase.tokens :=
    phrase.nested (List.Subset.refl _) phrase.nested_lengths
  rw [Rust.depthSum_all, hnested.depthSum_eq_zero (List.Subset.refl _), phrase.depthSum_angle, Int.zero_add]

end Phrase

end Grammar

end FfiBindings.Rust
