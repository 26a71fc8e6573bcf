import FfiBindings.Proofs.Rust.Grammar

/-!
Reading a function that is written as the grammar has it. Each part of a signature is read as what the
tree says of it and leaves what comes after the part: the parameters (`readParameters_chunks`), the
return type, the where clause and the body; together they are `readNamed_written`.
-/

set_option autoImplicit false
set_option relaxedAutoImplicit false

namespace FfiBindings.Rust

open Grammar

/-! ### Walks that go through -/

theorem returnTypeSize_append {depth : Int} {tokens : List Token} (rest : List Token)
    (h : Passes Bracket.all endsReturnType depth tokens) :
    returnTypeSize depth (tokens ++ rest) =
      returnTypeSize (depth + depthSum Bracket.all tokens) rest + tokens.length := by
  induction tokens generalizing depth with
  | nil => simp [depthSum]
  | cons token tokens ih =>
    obtain ⟨hstop, hpasses⟩ := h
    have hgo : (decide (depth = 0) && endsReturnType token) = false := by simpa using hstop
    rw [List.cons_append, returnTypeSize, hgo, if_neg (by simp), ih hpasses]
    simp only [depthSum, List.map_cons, List.sum_cons, List.length_cons, Int.add_assoc]
    omega

theorem whereClauseSize_append {depth : Int} {tokens : List Token} (rest : List Token)
    (h : Passes [.paren, .square, .angle] (fun token => token.isPunct "\x7b" || token.isPunct ";")
      depth tokens) :
    whereClauseSize depth (tokens ++ rest) =
      whereClauseSize (depth + depthSum [.paren, .square, .angle] tokens) rest + tokens.length := by
  induction tokens generalizing depth with
  | nil => simp [depthSum]
  | cons token tokens ih =>
    obtain ⟨hstop, hpasses⟩ := h
    have hgo : (decide (depth = 0) && (token.isPunct "\x7b" || token.isPunct ";")) = false := by
      simpa using hstop
    rw [List.cons_append, whereClauseSize, hgo, if_neg (by simp), ih hpasses]
    simp only [depthSum, List.map_cons, List.sum_cons, List.length_cons, Int.add_assoc]
    omega

theorem splitTopLevelFrom_ne_nil (separator : String) (depth : Int) (tokens : List Token) :
    splitTopLevelFrom separator depth tokens ≠ [] := by
  cases tokens with
  | nil => simp [splitTopLevelFrom]
  | cons token tokens =>
    simp only [splitTopLevelFrom]
    split
    · simp
    · generalize splitTopLevelFrom separator _ tokens = chunks
      cases chunks <;> simp [consToFirst]

theorem splitTopLevelFrom_append {separator : String} {depth : Int} {tokens : List Token}
    (rest : List Token) (h : Passes Bracket.all (·.isPunct separator) depth tokens) :
    splitTopLevelFrom separator depth (tokens ++ rest) =
      tokens.foldr consToFirst
        (splitTopLevelFrom separator (depth + depthSum Bracket.all tokens) rest) := by
  induction tokens generalizing depth with
  | nil => simp [depthSum]
  | cons token tokens ih =>
    obtain ⟨hstop, hpasses⟩ := h
    have hgo : (decide (Bracket.depthChange Bracket.all token = 0) && decide (depth = 0) &&
        token.isPunct separator) = false := by
      simp only [Bool.and_eq_false_imp, Bool.and_eq_true, decide_eq_true_eq]
      intro hboth
      simpa [hboth.2] using hstop
    simp only [List.cons_append, splitTopLevelFrom, hgo, Bool.false_eq_true, if_false, ih hpasses,
      List.foldr_cons, depthSum, List.map_cons, List.sum_cons, Int.add_assoc]

theorem foldr_consToFirst (tokens chunk : List Token) (chunks : List (List Token)) :
    tokens.foldr consToFirst (chunk :: chunks) = (tokens ++ chunk) :: chunks := by
  induction tokens with
  | nil => rfl
  | cons token tokens ih => simp [ih, consToFirst]

/-- The chunk up to the first separator outside all brackets. -/
theorem splitTopLevel_of_passes {separator : String} {chunk : List Token} {mark : Token} (rest : List Token)
    (h : Passes Bracket.all (·.isPunct separator) 0 chunk) (hsum : depthSum Bracket.all chunk = 0)
    (hmark : mark.isPunct separator = true) (hplain : IsPlain Bracket.all mark) :
    splitTopLevel separator (chunk ++ mark :: rest) = chunk :: splitTopLevel separator rest := by
  have hzero : Bracket.depthChange Bracket.all mark = 0 :=
    hplain.depthChange_eq_zero fun _ hmem => hmem
  rw [splitTopLevel, splitTopLevelFrom_append _ h, hsum]
  simp [splitTopLevelFrom, hzero, hmark, foldr_consToFirst, splitTopLevel]

theorem splitTopLevel_eq_singleton {separator : String} {chunk : List Token}
    (h : Passes Bracket.all (·.isPunct separator) 0 chunk) : splitTopLevel separator chunk = [chunk] := by
  have hsplit := splitTopLevelFrom_append [] h
  rw [List.append_nil] at hsplit
  rw [splitTopLevel, hsplit]
  simp [splitTopLevelFrom, foldr_consToFirst]

theorem splitTopLevel_cons {outer : Token → Bool} {separator : String} {chunk : List Token}
    {mark : Token} {rest : List Token} (h : Nested Bracket.all outer chunk)
    (houter : ∀ token, outer token = true → token.isPunct separator = false)
    (hmark : mark.isPunct separator = true) (hplain : IsPlain Bracket.all mark) :
    splitTopLevel separator (chunk ++ mark :: rest) = chunk :: splitTopLevel separator rest := by
  have hpasses : Passes Bracket.all (·.isPunct separator) 0 chunk :=
    h.passes (fun _ hmem => hmem) houter fun bracket hmem hout => absurd hmem hout
  exact splitTopLevel_of_passes rest hpasses (h.depthSum_eq_zero fun _ hmem => hmem) hmark hplain

theorem splitTopLevel_last {outer : Token → Bool} {separator : String} {chunk : List Token}
    (h : Nested Bracket.all outer chunk)
    (houter : ∀ token, outer token = true → token.isPunct separator = false) :
    splitTopLevel separator chunk = [chunk] :=
  splitTopLevel_eq_singleton
    (h.passes (fun _ hmem => hmem) houter fun _ hmem hout => absurd hmem hout)

theorem findIdx?_topLevelFrom {mark : String} {depth : Int} {tokens : List Token}
    (rest : List Token) (h : Passes Bracket.all (·.isPunct mark) depth tokens) :
    (topLevelFrom depth (tokens ++ rest)).findIdx? (·.any (·.isPunct mark)) =
      ((topLevelFrom (depth + depthSum Bracket.all tokens) rest).findIdx?
        (·.any (·.isPunct mark))).map (· + tokens.length) := by
  induction tokens generalizing depth with
  | nil => simp [depthSum]
  | cons token tokens ih =>
    obtain ⟨hstop, hpasses⟩ := h
    have hmiss : (if (decide (Bracket.depthChange Bracket.all token = 0) && decide (depth = 0)) = true
        then some token else none).any (·.isPunct mark) = false := by
      split
      · rename_i hboth
        simp only [Bool.and_eq_true, decide_eq_true_eq] at hboth
        simpa [hboth.2] using hstop
      · rfl
    simp only [List.cons_append, topLevelFrom, List.findIdx?_cons, hmiss, Bool.false_eq_true,
      if_false, ih hpasses, depthSum, List.map_cons, List.sum_cons, Int.add_assoc,
      Option.map_map, List.length_cons]
    congr 1

/-! ### Parameters -/

theorem comma_isPlain {token : Token} (h : token.isPunct "," = true) : IsPlain Bracket.all token :=
  isPlain_of_isPunct h (by decide)

theorem colon_isPlain {token : Token} (h : token.isPunct ":" = true) : IsPlain Bracket.all token :=
  isPlain_of_isPunct h (by decide)

/-- One mark is not another. -/
theorem Token.isPunct_eq_false {token : Token} {text other : String} (h : token.isPunct text = true)
    (hne : text ≠ other) : token.isPunct other = false := by
  obtain ⟨-, rfl⟩ := Token.isPunct_iff.1 h
  simp [Token.isPunct, hne]

namespace Grammar

namespace Group

variable {bracket : Bracket} {among : List Bracket}

theorem tokens_append (group : Group bracket among) (rest : List Token) :
    group.tokens ++ rest = group.opening :: (group.inside ++ group.closing :: rest) := by
  simp [tokens]

theorem enclosed_tokens (group : Group bracket among) (hmem : bracket ∈ among)
    (enclosure : Enclosure) (line : Nat) (rest : List Token) :
    enclosed bracket enclosure line (group.tokens ++ rest) = .ok (group.inside, rest) := by
  rw [tokens_append]
  exact enclosed_of_nested group.nested hmem group.closes enclosure line rest

end Group

theorem Parameter.nested_tokens (parameter : Parameter) :
    Nested Bracket.all inParameterType parameter.tokens := by
  have hpattern : Nested Bracket.all inParameterType parameter.pattern :=
    parameter.nestedPattern.mono fun token h => by
      simp only [inPattern, Bool.and_eq_true] at h
      exact h.1
  have hcolon : inParameterType parameter.colon.1 = true := by
    simp [inParameterType, Token.isPunct_eq_false parameter.colon.2]
  exact hpattern.append
    (.plain (colon_isPlain parameter.colon.2) hcolon parameter.nestedType)

/-- The chunks that the commas cut parameters into. -/
def Parameters.chunks : Parameters → List (List Token)
  | .none => [[]]
  | .last parameter => [parameter.tokens]
  | .more parameter _ rest => parameter.tokens :: rest.chunks

theorem Parameters.nested_tokens (parameters : Parameters) :
    Nested Bracket.all anywhere parameters.tokens := by
  induction parameters with
  | none => exact .nil
  | last parameter => exact parameter.nested_tokens.mono fun _ _ => rfl
  | more parameter comma rest ih =>
    exact (parameter.nested_tokens.mono fun _ _ => rfl).append
      (.plain (comma_isPlain comma.2) rfl ih)

theorem Parameters.splitTopLevel_tokens (parameters : Parameters) :
    splitTopLevel "," parameters.tokens = parameters.chunks := by
  have houter (token : Token) (h : inParameterType token = true) : token.isPunct "," = false := by
    simpa [inParameterType] using h
  induction parameters with
  | none => rfl
  | last parameter => exact splitTopLevel_last parameter.nested_tokens houter
  | more parameter comma rest ih =>
    rw [Parameters.tokens, splitTopLevel_cons parameter.nested_tokens houter comma.2
      (comma_isPlain comma.2), ih, Parameters.chunks]

/-- The first colon outside all brackets is the one after the pattern. -/
theorem Parameter.findIdx?_colon (parameter : Parameter) :
    (topLevel parameter.tokens).findIdx? (·.any (·.isPunct ":")) =
      some parameter.pattern.length := by
  have hpasses : Passes Bracket.all (·.isPunct ":") 0 parameter.pattern := by
    refine parameter.nestedPattern.passes (fun _ hmem => hmem) (fun token h => ?_)
      fun bracket hmem hout => absurd hmem hout
    simp only [inPattern, Bool.and_eq_true, Bool.not_eq_true'] at h
    exact h.2
  have hzero : Bracket.depthChange Bracket.all parameter.colon.1 = 0 :=
    (colon_isPlain parameter.colon.2).depthChange_eq_zero fun _ hmem => hmem
  have hsum : depthSum Bracket.all parameter.pattern = 0 :=
    parameter.nestedPattern.depthSum_eq_zero fun _ hmem => hmem
  rw [topLevel, Parameter.tokens, findIdx?_topLevelFrom _ hpasses, hsum]
  simp [topLevelFrom, hzero, List.findIdx?_cons, parameter.colon.2]

theorem Parameter.read_tokens (parameter : Parameter) (function : String) (position : Nat)
    {first : Token} {rest : List Token} (h : parameter.tokens = first :: rest) :
    Rust.Parameter.read function position first rest = .ok parameter.meaning := by
  have hcolon := parameter.findIdx?_colon
  have htype : parameter.tokens.drop (parameter.pattern.length + 1) = parameter.type := by
    rw [Parameter.tokens, List.drop_append, List.drop_eq_nil_of_le (by omega)]
    simp
  have hpattern : parameter.tokens.take parameter.pattern.length = parameter.pattern := by
    simp [Parameter.tokens]
  have hsome : parameter.type.isEmpty = false := by simpa using parameter.hasType
  rw [h] at hcolon htype hpattern
  simp only [Rust.Parameter.read, hcolon, htype, hpattern, hsome, Bool.false_eq_true, if_false]
  rfl

theorem Parameter.tokens_ne_nil (parameter : Parameter) : parameter.tokens ≠ [] := by
  simp [Parameter.tokens]

theorem Parameters.readParameters_chunks (parameters : Parameters) (function : String)
    (position : Nat) :
    readParameters function position parameters.chunks = .ok parameters.meaning := by
  induction parameters generalizing position with
  | none => rfl
  | last parameter =>
    obtain ⟨first, rest, htokens⟩ := List.exists_cons_of_ne_nil parameter.tokens_ne_nil
    rw [Parameters.chunks, htokens, readParameters, parameter.read_tokens function position htokens]
    rfl
  | more parameter comma more ih =>
    obtain ⟨first, rest, htokens⟩ := List.exists_cons_of_ne_nil parameter.tokens_ne_nil
    rw [Parameters.chunks, htokens, readParameters, parameter.read_tokens function position htokens,
      ih]
    rfl

/-! ### What comes after the parameters -/

/-- A where clause, a body or a semicolon begins here. -/
structure EndsSignature (tokens : List Token) : Prop where
  ends : ∃ token rest, tokens = token :: rest ∧ endsReturnType token = true
  noArrow : nextIsPunct tokens "->" = false

theorem Body.tokens_cons (body : Body) : ∃ token rest, body.tokens = token :: rest ∧
    (token.isPunct "\x7b" = true ∨ token.isPunct ";" = true) := by
  cases body with
  | semicolon mark => exact ⟨mark.1, [], rfl, .inr mark.2⟩
  | block braces => exact ⟨braces.opening, _, rfl, .inl braces.opens⟩

/-- The marks that end a signature do so behind a where clause too. -/
theorem endsSignature_mark (clause : Option WhereClause) {token : Token}
    (hmark : token.isPunct "\x7b" = true ∨ token.isPunct ";" = true) (rest : List Token) :
    EndsSignature (clause.elim [] WhereClause.tokens ++ token :: rest) := by
  cases clause with
  | none =>
    refine ⟨⟨token, rest, rfl, ?_⟩, ?_⟩
    · rcases hmark with hmark | hmark <;> simp [endsReturnType, hmark]
    · rcases hmark with hmark | hmark <;>
        simpa [nextIsPunct] using Token.isPunct_eq_false hmark (by decide)
  | some clause =>
    have hkind : clause.keyword.1.kind = .ident := (Token.isIdent_iff.1 clause.keyword.2).1
    refine ⟨⟨clause.keyword.1, _, rfl, ?_⟩, ?_⟩
    · simp [endsReturnType, clause.keyword.2]
    · simp [WhereClause.tokens, nextIsPunct, Token.isPunct, hkind]

theorem endsSignature_clause (clause : Option WhereClause) (body : Body) (rest : List Token) :
    EndsSignature (clause.elim [] WhereClause.tokens ++ (body.tokens ++ rest)) := by
  obtain ⟨token, tail, htokens, hmark⟩ := body.tokens_cons
  rw [htokens]
  exact endsSignature_mark clause hmark (tail ++ rest)

theorem Body.endsSignature (body : Body) (rest : List Token) : EndsSignature (body.tokens ++ rest) :=
  endsSignature_clause none body rest

theorem readReturnType_written (returned : Option Returned) (function : String) (line : Nat)
    {rest : List Token} (hrest : EndsSignature rest) :
    readReturnType function line (returned.elim [] Returned.tokens ++ rest) =
      .ok (returned.elim "void" fun returned => spell returned.type, rest) := by
  cases returned with
  | none => simp [readReturnType, hrest.noArrow]
  | some returned =>
    obtain ⟨token, tail, rfl, hends⟩ := hrest.ends
    have hpasses : Passes Bracket.all endsReturnType 0 returned.type := by
      refine returned.nested.passes (fun _ hmem => hmem) (fun token h => ?_)
        fun bracket hmem hout => absurd hmem hout
      simpa [inReturnType] using h
    have hsize : returnTypeSize 0 (returned.type ++ token :: tail) = returned.type.length := by
      rw [returnTypeSize_append _ hpasses, returned.nested.depthSum_eq_zero fun _ hmem => hmem]
      simp [returnTypeSize, hends]
    have harrow : nextIsPunct (returned.arrow.1 :: (returned.type ++ token :: tail)) "->" = true := by
      simp [nextIsPunct, returned.arrow.2]
    have hsome : returned.type.length ≠ 0 := by simpa using returned.hasType
    simp [readReturnType, Returned.tokens, harrow, hsize, returned.hasType]

theorem skipWhereClause_mark (clause : Option WhereClause) {token : Token}
    (hmark : token.isPunct "\x7b" = true ∨ token.isPunct ";" = true) (rest : List Token) :
    skipWhereClause (clause.elim [] WhereClause.tokens ++ token :: rest) = token :: rest := by
  cases clause with
  | none =>
    have hno : nextIsIdent (token :: rest) "where" = false := by
      rcases hmark with hmark | hmark <;>
        simp [nextIsIdent, Token.isIdent, (Token.isPunct_iff.1 hmark).1]
    simp [skipWhereClause, hno]
  | some clause =>
    have hkind : clause.keyword.1.kind ≠ .punct := by simp [(Token.isIdent_iff.1 clause.keyword.2).1]
    have hkeyword (text : String) : clause.keyword.1.isPunct text = false := by
      simp [Token.isPunct, hkind]
    have hsub : [Bracket.paren, .square, .angle] ⊆ Bracket.all := by decide
    have hpasses : Passes [.paren, .square, .angle]
        (fun token => token.isPunct "\x7b" || token.isPunct ";") 0 clause.bounds := by
      refine clause.nested.passes hsub (fun token h => ?_) fun bracket _ hout token hopens => ?_
      · simpa [inWhereClause] using h
      · have hbrace : bracket = .brace := by
          cases bracket with
          | brace => rfl
          | _ => exact absurd (by decide) hout
        subst hbrace
        have hpunct : token.isPunct "\x7b" = true := hopens
        simp [inWhereClause, hpunct]
    have hzero : Bracket.depthChange [.paren, .square, .angle] clause.keyword.1 = 0 :=
      (isPlain_of_kind_ne hkind).depthChange_eq_zero fun _ hmem => hmem
    have hstop : (token.isPunct "\x7b" || token.isPunct ";") = true := by
      rcases hmark with hmark | hmark <;> simp [hmark]
    have hsize : whereClauseSize 0 (clause.keyword.1 :: (clause.bounds ++ token :: rest)) =
        clause.bounds.length + 1 := by
      rw [whereClauseSize, hzero, Int.add_zero, whereClauseSize_append _ hpasses,
        clause.nested.depthSum_eq_zero hsub]
      simp [whereClauseSize, hstop, hkeyword]
    have hnext : nextIsIdent (clause.keyword.1 :: (clause.bounds ++ token :: rest)) "where" = true := by
      simp [nextIsIdent, clause.keyword.2]
    simp [skipWhereClause, WhereClause.tokens, hnext, hsize]

theorem skipWhereClause_written (clause : Option WhereClause) (body : Body) (rest : List Token) :
    skipWhereClause (clause.elim [] WhereClause.tokens ++ (body.tokens ++ rest)) =
      body.tokens ++ rest := by
  obtain ⟨token, tail, htokens, hmark⟩ := body.tokens_cons
  rw [htokens]
  exact skipWhereClause_mark clause hmark (tail ++ rest)

theorem skipBody_written (body : Body) (function : String) (line : Nat) (rest : List Token) :
    skipBody function line (body.tokens ++ rest) = .ok rest := by
  cases body with
  | semicolon mark => simp [Body.tokens, skipBody, mark.2]
  | block braces =>
    have hopens : braces.opening.isPunct "\x7b" = true := braces.opens
    have hother : braces.opening.isPunct ";" = false := Token.isPunct_eq_false hopens (by decide)
    have hgroup := braces.enclosed_tokens (by simp) (.body function) line rest
    rw [Group.tokens_append] at hgroup
    rw [Body.tokens, Group.tokens_append]
    simp [skipBody, hother, hopens, hgroup]

/-! ### Whole signatures -/

theorem skipGenerics_written (generics : Option (Group .angle Bracket.all)) (line : Nat)
    {rest : List Token} (hrest : nextIsPunct rest "<" = false) :
    Signature.skipGenerics line (generics.elim [] Group.tokens ++ rest) =
      .ok (generics.isSome, rest) := by
  cases generics with
  | none => simp [Signature.skipGenerics, hrest]
  | some generics =>
    have hgroup := generics.enclosed_tokens (by decide) (.group .angle) line rest
    have hnext : nextIsPunct (generics.tokens ++ rest) "<" = true := generics.opens
    simp [Signature.skipGenerics, hnext, hgroup]

theorem Function.tokensFromParameters_append (function : Function) (rest : List Token) :
    function.tokensFromParameters ++ rest =
      function.opening.1 :: (function.parameters.tokens ++ function.closing.1 ::
        (function.returned.elim [] Returned.tokens ++
          (function.clause.elim [] WhereClause.tokens ++ (function.body.tokens ++ rest)))) := by
  simp [tokensFromParameters]

/-- Whatever stands between the parentheses, the parameters are read from it, and reading goes on behind them. -/
theorem readNamed_eq (generics : Option (Group .angle Bracket.all)) (opening : Mark "(") {among : List Bracket}
    {inside : List Token} (hinside : Nested among anywhere inside) (hmem : .paren ∈ among) (closing : Mark ")")
    (name : String) (line : Nat) (after : List Token) :
    Signature.readNamed name line
        (generics.elim [] Group.tokens ++ opening.1 :: (inside ++ closing.1 :: after)) = do
      let parameters ← readParameters name 1 (splitTopLevel "," inside)
      let (returnType, left) ← readReturnType name line after
      let left ← skipBody name line (skipWhereClause left)
      return (⟨⟨name, parameters, returnType, line⟩, generics.isSome⟩, left) := by
  have hcloses : Bracket.paren.closes closing.1 = true := closing.2
  have hgroup : enclosed .paren (.parameters name) line (opening.1 :: (inside ++ closing.1 :: after)) =
      .ok (inside, after) := enclosed_of_nested hinside hmem hcloses _ _ _
  have hopens : nextIsPunct (opening.1 :: (inside ++ closing.1 :: after)) "(" = true := by
    simp [nextIsPunct, opening.2]
  have hangle : nextIsPunct (opening.1 :: (inside ++ closing.1 :: after)) "<" = false := by
    simpa [nextIsPunct] using Token.isPunct_eq_false opening.2 (by decide)
  simp [Signature.readNamed, skipGenerics_written generics line hangle, hopens, hgroup, bind, Except.bind, pure,
    Except.pure]

/-- What is read of a function after its name. -/
theorem Function.readNamed_written (function : Function) (name : String) (line : Nat)
    (rest : List Token) :
    Signature.readNamed name line
        (function.generics.elim [] Group.tokens ++ (function.tokensFromParameters ++ rest)) =
      .ok (⟨{ function.meaning with name, line }, function.generics.isSome⟩, rest) := by
  have hreturned := readReturnType_written function.returned name line
    (endsSignature_clause function.clause function.body rest)
  have hclause := skipWhereClause_written function.clause function.body rest
  have hbody := skipBody_written function.body name line rest
  rw [function.tokensFromParameters_append, readNamed_eq function.generics function.opening
    function.parameters.nested_tokens (by decide) function.closing, function.parameters.splitTopLevel_tokens,
    function.parameters.readParameters_chunks]
  simp [bind, Except.bind, pure, Except.pure, hreturned, hclause, hbody, Function.meaning]

end Grammar

end FfiBindings.Rust
