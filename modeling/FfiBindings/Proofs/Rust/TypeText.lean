import FfiBindings.Proofs.Rust.Lexeme
import FfiBindings.Proofs.Rust.Remainder

/-!
Where the types of functions come from. The chunks of a parameter list are stretches of it (`infix_of_mem_chunks`), so
the type of every parameter of a function that is found, in any source, is the spelling of a stretch of the source's
tokens that is not empty, and so is the return type where one is written (`written_of_mem_exportedFunctions`).
-/

set_option autoImplicit false
set_option relaxedAutoImplicit false

namespace FfiBindings.Rust

variable {tokens after inside : List Token} {line : Nat}

/-- The spelling of some of the tokens, at least one, in a row. -/
def IsWritten (tokens : List Token) (type : String) : Prop :=
  ∃ written, written ≠ [] ∧ written <:+: tokens ∧ type = spell written

theorem IsWritten.mono {part : List Token} {type : String} (h : IsWritten part type) (hpart : part <:+: tokens) :
    IsWritten tokens type := by
  obtain ⟨written, hne, hwithin, rfl⟩ := h
  exact ⟨written, hne, hwithin.trans hpart, rfl⟩

theorem spell_ne_empty (h : ∀ token ∈ tokens, token.IsTrim) (hne : tokens ≠ []) : spell tokens ≠ "" := by
  obtain ⟨token, rest, rfl⟩ := List.exists_cons_of_ne_nil hne
  obtain ⟨c, hc, -⟩ := (h token List.mem_cons_self).first
  intro hempty
  have hboth := congrArg String.toList hempty
  rw [spell, String.toList_append] at hboth
  rw [(List.append_eq_nil_iff.1 hboth).1] at hc
  exact absurd hc (by simp)

/-! ### Stretches -/

theorem prefix_of_groupFrom? {bracket : Bracket} {depth : Nat}
    (h : groupFrom? bracket depth tokens = some (inside, after)) : inside <+: tokens := by
  obtain ⟨closing, rfl⟩ := eq_append_of_groupFrom? h
  exact List.prefix_append inside _

theorem infix_of_enclosed {bracket : Bracket} {enclosure : Enclosure}
    (h : enclosed bracket enclosure line tokens = .ok (inside, after)) : inside <:+: tokens := by
  unfold enclosed at h
  split at h
  · rename_i hgroup
    obtain ⟨rfl, rfl⟩ := Prod.mk.inj (Except.ok.inj h)
    exact (prefix_of_groupFrom? hgroup).isInfix.trans (List.tail_suffix tokens).isInfix
  · exact absurd h (by simp)

theorem exists_of_splitTopLevelFrom (separator : String) (depth : Int) (tokens : List Token) :
    ∃ first chunks, splitTopLevelFrom separator depth tokens = first :: chunks ∧ first <+: tokens ∧
      ∀ chunk ∈ chunks, chunk <:+: tokens := by
  induction tokens generalizing depth with
  | nil => exact ⟨[], [], rfl, List.nil_prefix, by simp⟩
  | cons token rest ih =>
    obtain ⟨first, chunks, hsplit, hfirst, hchunks⟩ := ih (depth + Bracket.depthChange Bracket.all token)
    have hlater : ∀ chunk ∈ chunks, chunk <:+: token :: rest := fun chunk hchunk =>
      (hchunks chunk hchunk).trans (List.suffix_cons token rest).isInfix
    simp only [splitTopLevelFrom, hsplit]
    split
    · refine ⟨[], first :: chunks, rfl, List.nil_prefix, List.forall_mem_cons.2 ⟨?_, hlater⟩⟩
      exact hfirst.isInfix.trans (List.suffix_cons token rest).isInfix
    · exact ⟨token :: first, chunks, rfl, List.cons_prefix_cons.2 ⟨rfl, hfirst⟩, hlater⟩

theorem infix_of_mem_chunks {separator : String} :
    ∀ chunk ∈ splitTopLevel separator tokens, chunk <:+: tokens := by
  obtain ⟨first, chunks, hsplit, hfirst, hchunks⟩ := exists_of_splitTopLevelFrom separator 0 tokens
  rw [splitTopLevel, hsplit]
  exact List.forall_mem_cons.2 ⟨hfirst.isInfix, hchunks⟩

/-! ### Signatures -/

theorem Parameter.written_of_read {function : String} {position : Nat} {first : Token} {rest : List Token}
    {parameter : Parameter} (h : Parameter.read function position first rest = .ok parameter) :
    IsWritten (first :: rest) parameter.type := by
  unfold Parameter.read at h
  dsimp only at h
  split at h
  · exact absurd h (by simp)
  · rename_i colon hcolon
    split at h
    · exact absurd h (by simp)
    · rename_i hempty
      obtain rfl := Except.ok.inj h
      exact ⟨_, fun hnil => hempty (by rw [hnil]; rfl), (List.drop_suffix _ _).isInfix, rfl⟩

/-- Every parameter that is read from chunks is read from one of them. -/
theorem exists_chunk_of_readParameters {function : String} {position : Nat} {chunks : List (List Token)}
    {parameters : List Parameter} (h : readParameters function position chunks = .ok parameters) :
    ∀ parameter ∈ parameters, ∃ chunk ∈ chunks, IsWritten chunk parameter.type := by
  fun_induction readParameters function position chunks generalizing parameters with
  | case1 =>
    obtain rfl := Except.ok.inj h
    simp
  | case2 position chunks ih =>
    intro parameter hparameter
    obtain ⟨chunk, hchunk, hwritten⟩ := ih h parameter hparameter
    exact ⟨chunk, List.mem_cons_of_mem _ hchunk, hwritten⟩
  | case3 position first rest chunks ih =>
    cases hfirst : Parameter.read function position first rest with
    | error error =>
      rw [hfirst] at h
      exact absurd h (by simp [bind, Except.bind])
    | ok parameter =>
      cases hrest : readParameters function (position + 1) chunks with
      | error error =>
        rw [hfirst, hrest] at h
        exact absurd h (by simp [bind, Except.bind])
      | ok others =>
        rw [hfirst, hrest] at h
        obtain rfl := Except.ok.inj h
        intro other hother
        rcases List.mem_cons.1 hother with rfl | hother
        · exact ⟨first :: rest, List.mem_cons_self, Parameter.written_of_read hfirst⟩
        · obtain ⟨chunk, hchunk, hwritten⟩ := ih hrest other hother
          exact ⟨chunk, List.mem_cons_of_mem _ hchunk, hwritten⟩

theorem returnTypeSize_nil (depth : Int) : returnTypeSize depth [] = 0 := rfl

theorem written_of_readReturnType {function type : String}
    (h : readReturnType function line tokens = .ok (type, after)) :
    type = "void" ∨ IsWritten tokens type := by
  unfold readReturnType at h
  dsimp only at h
  split at h
  · split at h
    · exact absurd h (by simp)
    · rename_i hsize
      obtain ⟨rfl, -⟩ := Prod.mk.inj (Except.ok.inj h)
      refine .inr ⟨_, ?_, (List.take_prefix _ _).isInfix.trans (List.tail_suffix tokens).isInfix, rfl⟩
      intro hnil
      rcases List.take_eq_nil_iff.1 hnil with hzero | htail
      · exact hsize hzero
      · exact hsize (by rw [htail, returnTypeSize_nil])
  · obtain ⟨rfl, -⟩ := Prod.mk.inj (Except.ok.inj h)
    exact .inl rfl

/-- The types of a function that was read from the tokens, with the text that stands for no return type. -/
structure ExportedFunction.IsWritten (tokens : List Token) (function : ExportedFunction) : Prop where
  parameters : ∀ parameter ∈ function.parameters, Rust.IsWritten tokens parameter.type
  returns : function.returnType = "void" ∨ Rust.IsWritten tokens function.returnType

theorem ExportedFunction.IsWritten.mono {part : List Token} {function : ExportedFunction} (h : function.IsWritten part)
    (hpart : part <:+: tokens) : function.IsWritten tokens where
  parameters parameter hparameter := (h.parameters parameter hparameter).mono hpart
  returns := h.returns.imp_right fun hwritten => hwritten.mono hpart

/-- The types that a function is shown with. -/
def ExportedFunction.types (function : ExportedFunction) : List String :=
  function.parameters.map Parameter.type ++ [function.returnType]

theorem ExportedFunction.IsWritten.of_mem_types {function : ExportedFunction} (h : function.IsWritten tokens) :
    ∀ type ∈ function.types, type = "void" ∨ Rust.IsWritten tokens type := by
  intro type htype
  rcases List.mem_append.1 htype with hmapped | hreturned
  · obtain ⟨parameter, hparameter, rfl⟩ := List.mem_map.1 hmapped
    exact .inr (h.parameters parameter hparameter)
  · rw [List.mem_singleton.1 hreturned]
    exact h.returns

theorem Signature.written_of_readNamed {name : String} {signature : Signature}
    (h : Signature.readNamed name line tokens = .ok (signature, after)) : signature.function.IsWritten tokens := by
  obtain ⟨_, opened, inside, closed, parameters, returnType, ended, hgenerics, hgroup, hparameters, hreturned, -,
    rfl⟩ := Signature.exists_of_readNamed h
  have hopened : opened <:+: tokens := (Signature.skipGenerics_suffix hgenerics).isInfix
  constructor
  · intro parameter hparameter
    obtain ⟨chunk, hchunk, hwritten⟩ := exists_chunk_of_readParameters hparameters parameter hparameter
    exact hwritten.mono ((infix_of_mem_chunks chunk hchunk).trans ((infix_of_enclosed hgroup).trans hopened))
  · have hclosed : closed <:+: tokens := (enclosed_suffix hgroup).isInfix.trans hopened
    exact (written_of_readReturnType hreturned).imp_right fun hwritten => hwritten.mono hclosed

/-! ### Sources -/

theorem exists_tokens_of_exportedFunctions {source : String} {functions : List ExportedFunction}
    (h : exportedFunctions source = .ok functions) :
    ∃ tokens, Rust.tokens source = .ok tokens ∧ (Survey.ofTokens tokens).functions = .ok functions := by
  rw [exportedFunctions, Survey.ofSource] at h
  split at h
  · rename_i tokens htokens
    exact ⟨tokens, htokens, h⟩
  · exact absurd h (by simp [Survey.functions])

/-- The types of the functions that a source exports are written in it. -/
theorem written_of_mem_exportedFunctions {source : String} {functions : List ExportedFunction}
    (h : exportedFunctions source = .ok functions) (htokens : Rust.tokens source = .ok tokens) :
    ∀ function ∈ functions, function.IsWritten tokens := by
  obtain ⟨found, hfound, hfunctions⟩ := exists_tokens_of_exportedFunctions h
  obtain rfl := Except.ok.inj (htokens.symm.trans hfound)
  rw [Survey.functions] at hfunctions
  split at hfunctions
  · exact absurd hfunctions (by simp)
  · obtain rfl := Except.ok.inj hfunctions
    intro function hmem
    obtain ⟨keyword, rest, signature, after, hsuffix, -, hread, rfl⟩ := exists_of_mem_findings hmem
    obtain ⟨name, more, rfl, -, hnamed⟩ := Signature.exists_of_read? hread
    have hmore : more <:+: tokens :=
      ((List.suffix_cons name more).trans ((List.suffix_cons keyword _).trans hsuffix)).isInfix
    exact (Signature.written_of_readNamed hnamed).mono hmore

end FfiBindings.Rust
