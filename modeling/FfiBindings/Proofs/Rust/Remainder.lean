import FfiBindings.Proofs.Rust.Lossless
import FfiBindings.Rust.Item

/-!
What reading leaves of the tokens. Whatever a step of the survey reads, it takes from the front, so what is left is the
end of what there was (`step_suffix`), and every function that is found was read after a keyword `fn` and the token of
its name (`exists_of_mem_findings`). The name of an exported function is therefore a name, without the mark of a raw
identifier (`name_of_mem_exportedFunctions`).
-/

set_option autoImplicit false
set_option relaxedAutoImplicit false

namespace FfiBindings.Rust

variable {tokens after inside : List Token} {line : Nat}

/-! ### Groups -/

/-- One token stands between the inside of a group and what follows the group. -/
theorem eq_append_of_groupFrom? {bracket : Bracket} {depth : Nat}
    (h : groupFrom? bracket depth tokens = some (inside, after)) : ∃ closing, tokens = inside ++ closing :: after := by
  induction tokens generalizing depth inside with
  | nil => exact absurd h (by simp [groupFrom?])
  | cons token rest ih =>
    have hinner {deeper : Nat}
        (h : (groupFrom? bracket deeper rest).map (fun found => (token :: found.1, found.2)) =
          some (inside, after)) : ∃ closing, token :: rest = inside ++ closing :: after := by
      obtain ⟨⟨inner, tail⟩, hinner, heq⟩ := Option.map_eq_some_iff.1 h
      obtain ⟨rfl, rfl⟩ := Prod.mk.inj heq
      obtain ⟨closing, hrest⟩ := ih hinner
      exact ⟨closing, congrArg (token :: ·) hrest⟩
    unfold groupFrom? at h
    split at h
    · exact hinner h
    · split at h
      · split at h
        · obtain ⟨rfl, rfl⟩ := Prod.mk.inj (Option.some.inj h)
          exact ⟨token, rfl⟩
        · exact hinner h
      · exact hinner h

theorem groupFrom?_suffix {bracket : Bracket} {depth : Nat}
    (h : groupFrom? bracket depth tokens = some (inside, after)) : after <:+ tokens := by
  obtain ⟨closing, rfl⟩ := eq_append_of_groupFrom? h
  exact (List.suffix_cons closing after).trans (List.suffix_append inside _)

theorem enclosed_suffix {bracket : Bracket} {enclosure : Enclosure}
    (h : enclosed bracket enclosure line tokens = .ok (inside, after)) : after <:+ tokens := by
  unfold enclosed at h
  split at h
  · rename_i hgroup
    obtain ⟨rfl, rfl⟩ := Prod.mk.inj (Except.ok.inj h)
    exact (groupFrom?_suffix hgroup).trans (List.tail_suffix tokens)
  · exact absurd h (by simp)

/-! ### Signatures -/

namespace Signature

theorem skipGenerics_suffix {isGeneric : Bool} (h : skipGenerics line tokens = .ok (isGeneric, after)) :
    after <:+ tokens := by
  unfold skipGenerics at h
  split at h
  · split at h
    · rename_i hgroup
      obtain ⟨-, rfl⟩ := Prod.mk.inj (Except.ok.inj h)
      exact enclosed_suffix hgroup
    · exact absurd h (by simp)
  · obtain ⟨-, rfl⟩ := Prod.mk.inj (Except.ok.inj h)
    exact List.suffix_rfl

theorem readReturnType_suffix {function type : String} (h : readReturnType function line tokens = .ok (type, after)) :
    after <:+ tokens := by
  unfold readReturnType at h
  dsimp only at h
  split at h
  · split at h
    · exact absurd h (by simp)
    · obtain ⟨-, rfl⟩ := Prod.mk.inj (Except.ok.inj h)
      exact (List.drop_suffix _ _).trans (List.tail_suffix tokens)
  · obtain ⟨-, rfl⟩ := Prod.mk.inj (Except.ok.inj h)
    exact List.suffix_rfl

theorem skipWhereClause_suffix (tokens : List Token) : skipWhereClause tokens <:+ tokens := by
  unfold skipWhereClause
  split
  · exact List.drop_suffix _ _
  · exact List.suffix_rfl

theorem skipBody_suffix {function : String} (h : skipBody function line tokens = .ok after) : after <:+ tokens := by
  unfold skipBody at h
  split at h
  · obtain rfl := Except.ok.inj h
    exact List.suffix_rfl
  · rename_i token rest
    split at h
    · obtain rfl := Except.ok.inj h
      exact List.suffix_cons token _
    · split at h
      · split at h
        · rename_i hgroup
          obtain rfl := Except.ok.inj h
          exact enclosed_suffix hgroup
        · exact absurd h (by simp)
      · exact absurd h (by simp)

/-- The parts of a signature that was read, in their order. -/
theorem exists_of_readNamed {name : String} {signature : Signature}
    (h : readNamed name line tokens = .ok (signature, after)) :
    ∃ isGeneric opened inside closed parameters returnType ended,
      skipGenerics line tokens = .ok (isGeneric, opened) ∧
      enclosed .paren (.parameters name) line opened = .ok (inside, closed) ∧
      readParameters name 1 (splitTopLevel "," inside) = .ok parameters ∧
      readReturnType name line closed = .ok (returnType, ended) ∧
      skipBody name line (skipWhereClause ended) = .ok after ∧
      signature = ⟨⟨name, parameters, returnType, line⟩, isGeneric⟩ := by
  unfold readNamed at h
  cases hgenerics : skipGenerics line tokens with
  | error error =>
    rw [hgenerics] at h
    exact absurd h (by simp [bind, Except.bind])
  | ok generics =>
    obtain ⟨isGeneric, opened⟩ := generics
    rw [hgenerics] at h
    simp only [bind, Except.bind, pure, Except.pure] at h
    split at h
    · exact absurd h (by simp [throw, throwThe, MonadExceptOf.throw])
    · split at h
      · exact absurd h (by simp)
      · rename_i group hgroup
        split at h
        · exact absurd h (by simp)
        · rename_i parameters hparameters
          split at h
          · exact absurd h (by simp)
          · rename_i returned hreturned
            split at h
            · exact absurd h (by simp)
            · rename_i left hbody
              obtain ⟨rfl, rfl⟩ := Prod.mk.inj (Except.ok.inj h)
              exact ⟨isGeneric, opened, group.1, group.2, parameters, returned.1, returned.2, rfl, hgroup, hparameters,
                hreturned, hbody, rfl⟩

theorem readNamed_suffix {name : String} {signature : Signature}
    (h : readNamed name line tokens = .ok (signature, after)) : after <:+ tokens := by
  obtain ⟨_, _, _, _, _, _, _, hgenerics, hgroup, -, hreturned, hbody, -⟩ := exists_of_readNamed h
  exact (skipBody_suffix hbody).trans ((skipWhereClause_suffix _).trans ((readReturnType_suffix hreturned).trans
    ((enclosed_suffix hgroup).trans (skipGenerics_suffix hgenerics))))

/-- A signature begins with the token of its name. -/
theorem exists_of_read? {signature : Signature} (h : read? line tokens = .ok (some signature, after)) :
    ∃ name rest, tokens = name :: rest ∧ name.kind = .ident ∧
      readNamed (plainName name.text) line rest = .ok (signature, after) := by
  unfold read? at h
  split at h
  · rename_i token rest
    split at h
    · rename_i hkind
      split at h
      · rename_i hread
        obtain ⟨hsignature, rfl⟩ := Prod.mk.inj (Except.ok.inj h)
        obtain rfl := Option.some.inj hsignature
        exact ⟨token, rest, rfl, eq_of_beq hkind, hread⟩
      · exact absurd h (by simp)
    · exact absurd h (by simp)
  · exact absurd h (by simp)

theorem read?_suffix {signature : Option Signature} (h : read? line tokens = .ok (signature, after)) :
    after <:+ tokens := by
  cases signature with
  | some signature =>
    obtain ⟨name, rest, rfl, -, hread⟩ := exists_of_read? h
    exact (readNamed_suffix hread).trans (List.suffix_cons name rest)
  | none =>
    unfold read? at h
    split at h
    · split at h
      · split at h
        · exact absurd h (by simp)
        · exact absurd h (by simp)
      · obtain ⟨-, rfl⟩ := Prod.mk.inj (Except.ok.inj h)
        exact List.suffix_rfl
    · obtain ⟨-, rfl⟩ := Prod.mk.inj (Except.ok.inj h)
      exact List.suffix_rfl

end Signature

/-! ### Steps -/

namespace Item

variable {modifiers : Modifiers} {step : Step}

theorem dropNextIf_suffix (condition : Bool) (tokens : List Token) : dropNextIf condition tokens <:+ tokens := by
  unfold dropNextIf
  split
  · exact List.tail_suffix tokens
  · exact List.suffix_rfl

theorem attributes_suffix (h : attributes modifiers line tokens = .ok step) :
    step.rest <:+ tokens ∧ step.finding = none := by
  unfold attributes at h
  dsimp only at h
  split at h
  · split at h
    · rename_i hgroup
      obtain rfl := Except.ok.inj h
      exact ⟨(enclosed_suffix hgroup).trans (dropNextIf_suffix _ _), rfl⟩
    · exact absurd h (by simp)
  · obtain rfl := Except.ok.inj h
    exact ⟨dropNextIf_suffix _ _, rfl⟩

theorem visibility_suffix (h : visibility modifiers tokens = .ok step) :
    step.rest <:+ tokens ∧ step.finding = none := by
  unfold visibility at h
  split at h
  · split at h
    · split at h
      · rename_i hgroup
        obtain rfl := Except.ok.inj h
        exact ⟨enclosed_suffix hgroup, rfl⟩
      · exact absurd h (by simp)
    · obtain rfl := Except.ok.inj h
      exact ⟨List.suffix_rfl, rfl⟩
  · obtain rfl := Except.ok.inj h
    exact ⟨List.suffix_rfl, rfl⟩

theorem foreign_suffix (h : foreign modifiers line tokens = .ok step) :
    step.rest <:+ tokens ∧ step.finding = none := by
  unfold foreign at h
  dsimp only at h
  split at h
  · split at h
    · rename_i hgroup
      obtain rfl := Except.ok.inj h
      exact ⟨(enclosed_suffix hgroup).trans (dropNextIf_suffix _ _), rfl⟩
    · exact absurd h (by simp)
  · obtain rfl := Except.ok.inj h
    exact ⟨dropNextIf_suffix _ _, rfl⟩

theorem block_suffix {keyword : Token} (h : block keyword tokens = .ok step) :
    step.rest <:+ tokens ∧ step.finding = none := by
  unfold block at h
  split at h
  · exact absurd h (by simp)
  · dsimp only at h
    split at h
    · obtain rfl := Except.ok.inj h
      exact ⟨(List.tail_suffix _).trans (List.drop_suffix _ _), rfl⟩
    · split at h
      · rename_i hgroup
        obtain rfl := Except.ok.inj h
        exact ⟨(enclosed_suffix hgroup).trans (List.drop_suffix _ _), rfl⟩
      · exact absurd h (by simp)

theorem macroCall_suffix (h : macroCall line tokens = .ok step) :
    step.rest <:+ tokens ∧ step.finding = none := by
  unfold macroCall at h
  dsimp only at h
  split at h
  · obtain rfl := Except.ok.inj h
    exact ⟨(dropNextIf_suffix _ _).trans (List.tail_suffix tokens), rfl⟩
  · split at h
    · rename_i hgroup
      obtain rfl := Except.ok.inj h
      exact ⟨(enclosed_suffix hgroup).trans ((dropNextIf_suffix _ _).trans (List.tail_suffix tokens)), rfl⟩
    · exact absurd h (by simp)

/-- A function that is found was read after its keyword. -/
theorem function_suffix (h : function modifiers line tokens = .ok step) :
    step.rest <:+ tokens ∧ ∀ found, step.finding.bind Finding.function? = some found →
      ∃ signature, Signature.read? line tokens = .ok (some signature, step.rest) ∧ signature.function = found := by
  unfold function at h
  split at h
  · exact absurd h (by simp)
  · rename_i hread
    obtain rfl := Except.ok.inj h
    exact ⟨Signature.read?_suffix hread, by simp⟩
  · rename_i signature after hread
    obtain rfl := Except.ok.inj h
    refine ⟨Signature.read?_suffix hread, ?_⟩
    intro found hfound
    refine ⟨signature, hread, ?_⟩
    dsimp only at hfound
    split at hfound
    · exact absurd hfound (by simp)
    · split at hfound
      · exact absurd hfound (by simp [Finding.function?])
      · simpa [Finding.function?] using hfound

theorem step_suffix {token : Token} {rest : List Token} (h : Item.step modifiers token rest = .ok step) :
    step.rest <:+ rest ∧ ∀ found, step.finding.bind Finding.function? = some found →
      token.isIdent "fn" = true ∧ ∃ signature, Signature.read? token.line rest = .ok (some signature, step.rest) ∧
        signature.function = found := by
  have hpassed (h : step.rest <:+ rest ∧ step.finding = none) :
      step.rest <:+ rest ∧ ∀ found, step.finding.bind Finding.function? = some found →
        token.isIdent "fn" = true ∧ ∃ signature, Signature.read? token.line rest = .ok (some signature, step.rest) ∧
          signature.function = found := by
    refine ⟨h.1, ?_⟩
    intro found hfound
    rw [h.2] at hfound
    exact absurd hfound (by simp)
  unfold Item.step at h
  split at h
  · exact hpassed (attributes_suffix h)
  split at h
  · exact hpassed (visibility_suffix h)
  split at h
  · exact hpassed (foreign_suffix h)
  split at h
  · rename_i hkeyword
    obtain ⟨hsuffix, hread⟩ := function_suffix h
    exact ⟨hsuffix, fun found hfound => ⟨hkeyword, hread found hfound⟩⟩
  split at h
  · exact hpassed (block_suffix h)
  split at h
  · exact hpassed (macroCall_suffix h)
  split at h
  · obtain rfl := Except.ok.inj h
    exact hpassed ⟨List.suffix_rfl, rfl⟩
  · obtain rfl := Except.ok.inj h
    exact hpassed ⟨List.suffix_rfl, rfl⟩

end Item

/-! ### Names -/

theorem filterMap_finding (finding : Option Finding) :
    finding.toList.filterMap Finding.function? = (finding.bind Finding.function?).toList := by
  cases finding with
  | none => rfl
  | some finding =>
    rw [Option.toList_some, Option.bind_some]
    cases hfunction : finding.function? with
    | none => rw [List.filterMap_cons_none hfunction, List.filterMap_nil, Option.toList_none]
    | some function => rw [List.filterMap_cons_some hfunction, List.filterMap_nil, Option.toList_some]

/-- Every function that is found stands somewhere among the tokens, after the keyword `fn`. -/
theorem exists_of_mem_findings {modifiers : Modifiers} {function : ExportedFunction}
    (h : function ∈ (Survey.ofTokensFrom modifiers tokens).findings.filterMap Finding.function?) :
    ∃ keyword rest signature after, keyword :: rest <:+ tokens ∧ keyword.isIdent "fn" = true ∧
      Signature.read? keyword.line rest = .ok (some signature, after) ∧ signature.function = function := by
  fun_induction Survey.ofTokensFrom modifiers tokens with
  | case1 => exact absurd h (by simp)
  | case2 => exact absurd h (by simp)
  | case3 modifiers token rest step hstep hlength survey ih =>
    obtain ⟨hsuffix, hfound⟩ := Item.step_suffix hstep
    rw [List.filterMap_append, List.mem_append] at h
    rcases h with hfirst | hlater
    · obtain ⟨finding, hfinding, hfunction⟩ := List.mem_filterMap.1 hfirst
      rw [Option.mem_toList] at hfinding
      obtain ⟨hkeyword, signature, hread, hsignature⟩ := hfound function (by rw [hfinding, Option.bind_some, hfunction])
      exact ⟨token, rest, signature, step.rest, List.suffix_rfl, hkeyword, hread, hsignature⟩
    · obtain ⟨keyword, left, signature, after, hleft, hread⟩ := ih hlater
      exact ⟨keyword, left, signature, after, hleft.trans (hsuffix.trans (List.suffix_cons token rest)), hread⟩

/-- Without the mark of a raw identifier, the text of an identifier is a name. -/
theorem plainName_mem {text : String} (h : text.toList ∈ Token.Kind.pattern .ident) :
    (Signature.plainName text).toList ∈ Pattern.name := by
  unfold Signature.plainName
  rcases Pattern.mem_optional_mul.1 h with hname | hraw
  · split
    · rename_i rest htext
      -- A hash is no word character, so no name begins with the mark.
      obtain ⟨c, word, hcs, -, hword⟩ := Pattern.mem_one_mul.1 (htext ▸ hname)
      obtain ⟨-, rfl⟩ := List.cons.inj hcs
      exact absurd (Pattern.mem_many.1 hword '#' List.mem_cons_self) (by decide)
    · exact hname
  · obtain ⟨rest, htext, hname⟩ := Pattern.mem_exactly_mul.1 hraw
    rw [htext]
    show (String.ofList rest).toList ∈ _
    rwa [String.toList_ofList]

theorem readNamed_name {name : String} {signature : Signature}
    (h : Signature.readNamed name line tokens = .ok (signature, after)) : signature.function.name = name := by
  obtain ⟨_, _, _, _, _, _, _, -, -, -, -, -, rfl⟩ := Signature.exists_of_readNamed h
  rfl

theorem name_of_mem_exportedFunctions {source : String} {functions : List ExportedFunction}
    (h : exportedFunctions source = .ok functions) :
    ∀ function ∈ functions, function.name.toList ∈ Pattern.name := by
  rw [exportedFunctions, Survey.ofSource] at h
  split at h
  · rename_i tokens htokens
    rw [Survey.functions] at h
    split at h
    · exact absurd h (by simp)
    · obtain rfl := Except.ok.inj h
      intro function hmem
      obtain ⟨keyword, rest, signature, after, hsuffix, -, hread, rfl⟩ := exists_of_mem_findings hmem
      obtain ⟨name, more, rfl, hkind, hnamed⟩ := Signature.exists_of_read? hread
      rw [readNamed_name hnamed]
      have hname := mem_pattern_of_mem_tokens htokens name
        (hsuffix.subset (List.mem_cons_of_mem _ List.mem_cons_self))
      rw [hkind] at hname
      exact plainName_mem hname
  · exact absurd h (by simp [Survey.functions])

end FfiBindings.Rust
