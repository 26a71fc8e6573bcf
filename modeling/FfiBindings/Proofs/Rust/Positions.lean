import FfiBindings.Proofs.Rust.Access
import FfiBindings.Proofs.Rust.LineJoin

/-!
Where functions and faults stand. The tokens that are left at any time are the tokens of what is left of the source,
from the line that the line feeds before it tell (`tokensFrom_of_suffix`). So the functions of a source are declared one
behind the other, each on the line of its keyword (`exists_declarations`), and whatever is refused is refused on the
line of one of the tokens (`exists_of_ofTokensFrom_error`). `extraction_total` puts this together: functions in the
order of their lines or an error on a line of the source, and nothing else.
-/

set_option autoImplicit false
set_option relaxedAutoImplicit false

namespace FfiBindings.Rust

variable {line : Nat} {cs : List Char} {tokens after inside : List Token} {token : Token} {rest : List Token}

/-! ### The tokens of what is left of a source -/

/-- A source that has tokens has blanks and comments, then the first of its tokens, and the others behind. -/
theorem exists_of_tokensFrom_cons (h : tokensFrom line cs = .ok (token :: rest)) :
    ∃ before text left, cs = before ++ text ++ left ∧ text ≠ [] ∧ token.text.toList = text ∧
      token.line = line + before.count '\n' ∧
      tokensFrom token.line (text ++ left) = .ok (token :: rest) ∧
      tokensFrom (line + (before ++ text).count '\n') left = .ok rest := by
  induction cs using Lexeme.source_induction generalizing line with
  | nil =>
    rw [tokensFrom_nil] at h
    exact absurd h (by simp)
  | heads lexeme text left hheads ih =>
    have hread := h
    rw [tokensFrom_of_heads line hheads] at h
    cases hleft : tokensFrom (line + text.count '\n') left with
    | error error =>
      rw [hleft] at h
      exact absurd h (by simp [Except.map])
    | ok found =>
      rw [hleft] at h
      have h := Except.ok.inj h
      cases hpiece : Piece.token? ⟨lexeme, text, line⟩ with
      | none =>
        rw [hpiece] at h
        obtain rfl : found = token :: rest := h
        obtain ⟨before, inner, more, rfl, hne, htext, hline, hhere, hmore⟩ := ih hleft
        refine ⟨text ++ before, inner, more, by simp, hne, htext, ?_, hhere, ?_⟩
        · rw [hline, List.count_append, Nat.add_assoc]
        · rw [← hmore]
          simp [List.count_append, Nat.add_assoc]
      | some first =>
        rw [hpiece] at h
        obtain ⟨rfl, rfl⟩ := List.cons.inj h
        unfold Piece.token? at hpiece
        split at hpiece
        · obtain rfl := Option.some.inj hpiece
          exact ⟨[], text, left, rfl, hheads.nonempty, String.toList_ofList, rfl, hread, hleft⟩
        · exact absurd hpiece (by simp)
  | stuck c rest flaw hstuck =>
    rw [tokensFrom_of_first_error line hstuck] at h
    exact absurd h (by simp)

/-- What is left of the tokens are the tokens of what is left of the source. -/
theorem tokensFrom_of_suffix (h : tokensFrom line cs = .ok tokens) (hafter : after <:+ tokens) :
    ∃ before left, cs = before ++ left ∧ tokensFrom (line + before.count '\n') left = .ok after := by
  obtain ⟨front, rfl⟩ := hafter
  induction front generalizing line cs with
  | nil => exact ⟨[], cs, rfl, h⟩
  | cons token front ih =>
    obtain ⟨before, text, left, rfl, -, -, -, -, hleft⟩ := exists_of_tokensFrom_cons h
    obtain ⟨more, last, rfl, hlast⟩ := ih hleft
    refine ⟨before ++ text ++ more, last, by simp, ?_⟩
    rwa [List.count_append, ← Nat.add_assoc]

/-- Every token stands on a line of the source. -/
theorem line_of_mem_tokensFrom (h : tokensFrom line cs = .ok tokens) :
    ∀ token ∈ tokens, line ≤ token.line ∧ token.line ≤ line + cs.count '\n' := by
  intro token htoken
  obtain ⟨front, back, rfl⟩ := List.append_of_mem htoken
  obtain ⟨before, left, rfl, hleft⟩ := tokensFrom_of_suffix h (List.suffix_append front _)
  obtain ⟨gap, text, more, rfl, -, -, hline, -, -⟩ := exists_of_tokensFrom_cons hleft
  simp only [List.count_append]
  omega

/-! ### Declarations -/

/-- Behind the text stands the keyword `fn`, on the line of the function, and what follows is read to the function. -/
structure DeclaredAfter (source before : List Char) (function : ExportedFunction) : Prop where
  keyword : before ++ ['f', 'n'] <+: source
  line : function.line = 1 + before.count '\n'
  read : ∃ rest signature left,
    tokensFrom function.line (source.drop before.length) = .ok (⟨.ident, "fn", function.line⟩ :: rest) ∧
      Signature.read? function.line rest = .ok (some signature, left) ∧ signature.function = function

theorem line_of_readNamed {name : String} {signature : Signature}
    (h : Signature.readNamed name line tokens = .ok (signature, after)) : signature.function.line = line := by
  obtain ⟨_, _, _, _, _, _, _, -, -, -, -, -, rfl⟩ := Signature.exists_of_readNamed h
  rfl

theorem declaredAfter_of_read {source before text left : List Char} {keyword : Token} {signature : Signature}
    (hsource : source = before ++ (text ++ left)) (htext : keyword.text.toList = text)
    (hline : keyword.line = 1 + before.count '\n')
    (hhere : tokensFrom keyword.line (text ++ left) = .ok (keyword :: rest)) (hkeyword : keyword.isIdent "fn" = true)
    (hread : Signature.read? keyword.line rest = .ok (some signature, after)) :
    DeclaredAfter source before signature.function := by
  obtain ⟨hkind, hfn⟩ := Token.isIdent_iff.1 hkeyword
  obtain ⟨name, later, rfl, -, hnamed⟩ := Signature.exists_of_read? hread
  have hfunction : signature.function.line = keyword.line := line_of_readNamed hnamed
  have htoken : (⟨.ident, "fn", signature.function.line⟩ : Token) = keyword := by rw [hfunction, ← hkind, ← hfn]
  rw [hfn] at htext
  constructor
  · exact ⟨left, by rw [hsource, ← htext, List.append_assoc]; rfl⟩
  · rw [hfunction, hline]
  · refine ⟨name :: later, signature, after, ?_, by rw [hfunction, hread], rfl⟩
    rw [htoken, hfunction, hsource, List.drop_left, hhere]

/-- The functions that are found in what is left of a source are declared in it, one behind the other. -/
theorem exists_declarations (modifiers : Modifiers) {source passed left : List Char} (hsource : source = passed ++ left)
    (h : tokensFrom (1 + passed.count '\n') left = .ok tokens) :
    ∃ places, List.Forall₂ (DeclaredAfter source) places
        ((Survey.ofTokensFrom modifiers tokens).findings.filterMap Finding.function?) ∧
      places.Pairwise (fun earlier later => earlier <+: later ∧ earlier.length < later.length) ∧
      ∀ place ∈ places, passed <+: place := by
  fun_induction Survey.ofTokensFrom modifiers tokens generalizing passed left with
  | case1 => exact ⟨[], .nil, .nil, by simp⟩
  | case2 => exact ⟨[], .nil, .nil, by simp⟩
  | case3 modifiers token rest step hstep hlength survey =>
    rename_i ih
    obtain ⟨before, text, more, rfl, hne, htext, hline, hhere, hmore⟩ := exists_of_tokensFrom_cons h
    obtain ⟨hsuffix, hfound⟩ := Item.step_suffix hstep
    obtain ⟨gap, last, rfl, hlast⟩ := tokensFrom_of_suffix hmore hsuffix
    have hwhole : source = passed ++ (before ++ text ++ gap) ++ last := by simp [hsource]
    have hlines : tokensFrom (1 + (passed ++ (before ++ text ++ gap)).count '\n') last = .ok step.rest := by
      rw [← hlast]
      simp only [List.count_append, Nat.add_assoc]
    obtain ⟨places, hplaces, hordered, hbeyond⟩ := ih hwhole hlines
    rw [List.filterMap_append, filterMap_finding]
    cases hfunction : step.finding.bind Finding.function? with
    | none =>
      exact ⟨places, hplaces, hordered, fun place hplace => (List.prefix_append _ _).trans (hbeyond place hplace)⟩
    | some function =>
      obtain ⟨hkeyword, signature, hread, hsignature⟩ := hfound function hfunction
      refine ⟨(passed ++ before) :: places, .cons ?_ hplaces, List.pairwise_cons.2 ⟨?_, hordered⟩, ?_⟩
      · refine hsignature ▸ declaredAfter_of_read (by simp [hsource]) htext ?_ hhere hkeyword hread
        rw [hline, List.count_append, Nat.add_assoc]
      · intro place hplace
        obtain ⟨beyond, rfl⟩ := hbeyond place hplace
        refine ⟨⟨text ++ gap ++ beyond, by simp⟩, ?_⟩
        have hlong := List.length_pos_iff.2 hne
        simp only [List.length_append]
        omega
      · refine List.forall_mem_cons.2 ⟨List.prefix_append passed before, ?_⟩
        exact fun place hplace => (List.prefix_append _ _).trans (hbeyond place hplace)

/-! ### Faults -/

/-- The error names the line, or the line of one of the tokens. -/
def Blames (line : Nat) (tokens : List Token) (error : SourceError) : Prop :=
  error.line = line ∨ ∃ token ∈ tokens, error.line = token.line

section

variable {error : SourceError}

theorem Blames.mono {part : List Token} (h : Blames line part error) (hpart : part ⊆ tokens) :
    Blames line tokens error :=
  h.imp_right fun ⟨token, htoken, hline⟩ => ⟨token, hpart htoken, hline⟩

/-- What is read in two parts is refused in the first or in the second. -/
theorem bind_eq_error_iff {α β : Type} {first : Except SourceError α} {second : α → Except SourceError β} :
    (first >>= second) = .error error ↔
      first = .error error ∨ ∃ value, first = .ok value ∧ second value = .error error := by
  cases first <;> simp [bind, Except.bind]

theorem line_of_enclosed {bracket : Bracket} {enclosure : Enclosure}
    (h : enclosed bracket enclosure line tokens = .error error) : error.line = line := by
  unfold enclosed at h
  split at h
  · exact absurd h (by simp)
  · obtain rfl := Except.error.inj h
    rfl

theorem line_of_skipGenerics (h : Signature.skipGenerics line tokens = .error error) : error.line = line := by
  unfold Signature.skipGenerics at h
  split at h
  · split at h
    · exact absurd h (by simp)
    · rename_i hgroup
      obtain rfl := Except.error.inj h
      exact line_of_enclosed hgroup
  · exact absurd h (by simp)

theorem line_of_parameterRead {function : String} {position : Nat} {first : Token}
    (h : Parameter.read function position first rest = .error error) : error.line = first.line := by
  unfold Parameter.read at h
  dsimp only at h
  split at h
  · obtain rfl := Except.error.inj h
    rfl
  · split at h
    · obtain rfl := Except.error.inj h
      rfl
    · exact absurd h (by simp)

theorem exists_chunk_of_error {function : String} {position : Nat} {chunks : List (List Token)}
    (h : readParameters function position chunks = .error error) :
    ∃ chunk ∈ chunks, ∃ token ∈ chunk, error.line = token.line := by
  fun_induction readParameters function position chunks with
  | case1 => exact absurd h (by simp)
  | case2 position chunks ih =>
    obtain ⟨chunk, hchunk, hblamed⟩ := ih h
    exact ⟨chunk, List.mem_cons_of_mem _ hchunk, hblamed⟩
  | case3 position first rest chunks ih =>
    obtain hfirst | ⟨parameter, -, h⟩ := bind_eq_error_iff.1 h
    · exact ⟨first :: rest, List.mem_cons_self, first, List.mem_cons_self, line_of_parameterRead hfirst⟩
    obtain hrest | ⟨parameters, -, h⟩ := bind_eq_error_iff.1 h
    · obtain ⟨chunk, hchunk, hblamed⟩ := ih hrest
      exact ⟨chunk, List.mem_cons_of_mem _ hchunk, hblamed⟩
    · exact absurd h (by simp [pure, Except.pure])

theorem line_of_readReturnType {function : String} (h : readReturnType function line tokens = .error error) :
    error.line = line := by
  unfold readReturnType at h
  dsimp only at h
  split at h
  · split at h
    · obtain rfl := Except.error.inj h
      rfl
    · exact absurd h (by simp)
  · exact absurd h (by simp)

theorem blames_skipBody {function : String} (h : skipBody function line tokens = .error error) :
    Blames line tokens error := by
  unfold skipBody at h
  split at h
  · exact absurd h (by simp)
  · rename_i token rest
    split at h
    · exact absurd h (by simp)
    · split at h
      · split at h
        · exact absurd h (by simp)
        · rename_i hgroup
          obtain rfl := Except.error.inj h
          exact .inl (line_of_enclosed hgroup)
      · obtain rfl := Except.error.inj h
        exact .inr ⟨token, List.mem_cons_self, rfl⟩

/-- A signature that is refused is refused on the line of its keyword or of a token behind it. -/
theorem blames_readNamed {name : String} (h : Signature.readNamed name line tokens = .error error) :
    Blames line tokens error := by
  unfold Signature.readNamed at h
  obtain hgenerics | ⟨⟨isGeneric, opened⟩, hgenerics, h⟩ := bind_eq_error_iff.1 h
  · exact .inl (line_of_skipGenerics hgenerics)
  have hopened := (Signature.skipGenerics_suffix hgenerics).subset
  dsimp only at h
  split at h
  · obtain hrefused | ⟨_, hrefused, -⟩ := bind_eq_error_iff.1 h
    · obtain rfl := Except.error.inj hrefused
      exact .inl rfl
    · exact absurd hrefused (by simp [throw, throwThe, MonadExceptOf.throw])
  obtain hgroup | ⟨⟨inside, closed⟩, hgroup, h⟩ := bind_eq_error_iff.1 h
  · exact .inl (line_of_enclosed hgroup)
  have hclosed := (enclosed_suffix hgroup).subset
  obtain hparameters | ⟨parameters, -, h⟩ := bind_eq_error_iff.1 h
  · obtain ⟨chunk, hchunk, token, htoken, hblamed⟩ := exists_chunk_of_error hparameters
    refine .inr ⟨token, hopened ((infix_of_enclosed hgroup).subset ?_), hblamed⟩
    exact (infix_of_mem_chunks chunk hchunk).subset htoken
  obtain hreturned | ⟨⟨returnType, ended⟩, hreturned, h⟩ := bind_eq_error_iff.1 h
  · exact .inl (line_of_readReturnType hreturned)
  have hended := (Signature.readReturnType_suffix hreturned).subset
  obtain hbody | ⟨left, -, h⟩ := bind_eq_error_iff.1 h
  · refine (blames_skipBody hbody).mono ?_
    intro token htoken
    exact hopened (hclosed (hended ((Signature.skipWhereClause_suffix ended).subset htoken)))
  · exact absurd h (by simp [pure, Except.pure])

theorem blames_read? (h : Signature.read? line tokens = .error error) : Blames line tokens error := by
  unfold Signature.read? at h
  split at h
  · split at h
    · split at h
      · exact absurd h (by simp)
      · rename_i hread
        obtain rfl := Except.error.inj h
        exact (blames_readNamed hread).mono (List.subset_cons_self _ _)
    · exact absurd h (by simp)
  · exact absurd h (by simp)

namespace Item

variable {modifiers : Modifiers}

theorem line_of_attributes (h : attributes modifiers line tokens = .error error) : error.line = line := by
  unfold attributes at h
  dsimp only at h
  split at h
  · split at h
    · exact absurd h (by simp)
    · rename_i hgroup
      obtain rfl := Except.error.inj h
      exact line_of_enclosed hgroup
  · exact absurd h (by simp)

theorem exists_of_visibility (h : visibility modifiers tokens = .error error) :
    ∃ token ∈ tokens, error.line = token.line := by
  unfold visibility at h
  split at h
  · rename_i token rest
    split at h
    · split at h
      · exact absurd h (by simp)
      · rename_i hgroup
        obtain rfl := Except.error.inj h
        exact ⟨token, List.mem_cons_self, line_of_enclosed hgroup⟩
    · exact absurd h (by simp)
  · exact absurd h (by simp)

theorem line_of_foreign (h : foreign modifiers line tokens = .error error) : error.line = line := by
  unfold foreign at h
  dsimp only at h
  split at h
  · split at h
    · exact absurd h (by simp)
    · rename_i hgroup
      obtain rfl := Except.error.inj h
      exact line_of_enclosed hgroup
  · exact absurd h (by simp)

theorem blames_function (h : function modifiers line tokens = .error error) : Blames line tokens error := by
  unfold function at h
  split at h
  · rename_i hread
    obtain rfl := Except.error.inj h
    exact blames_read? hread
  · exact absurd h (by simp)
  · exact absurd h (by simp)

theorem line_of_block {keyword : Token} (h : block keyword tokens = .error error) : error.line = keyword.line := by
  unfold block at h
  split at h
  · obtain rfl := Except.error.inj h
    rfl
  · dsimp only at h
    split at h
    · exact absurd h (by simp)
    · split at h
      · exact absurd h (by simp)
      · rename_i hgroup
        obtain rfl := Except.error.inj h
        exact line_of_enclosed hgroup

theorem line_of_macroCall (h : macroCall line tokens = .error error) : error.line = line := by
  unfold macroCall at h
  dsimp only at h
  split at h
  · exact absurd h (by simp)
  · split at h
    · exact absurd h (by simp)
    · rename_i hgroup
      obtain rfl := Except.error.inj h
      exact line_of_enclosed hgroup

theorem blames_step {token : Token} (h : Item.step modifiers token rest = .error error) :
    Blames token.line rest error := by
  unfold Item.step at h
  split at h
  · exact .inl (line_of_attributes h)
  split at h
  · exact .inr (exists_of_visibility h)
  split at h
  · exact .inl (line_of_foreign h)
  split at h
  · exact blames_function h
  split at h
  · exact .inl (line_of_block h)
  split at h
  · exact .inl (line_of_macroCall h)
  split at h
  · exact absurd h (by simp)
  · exact absurd h (by simp)

end Item

/-- What a survey refuses is refused on the line of one of the tokens. -/
theorem exists_of_ofTokensFrom_error {modifiers : Modifiers}
    (h : (Survey.ofTokensFrom modifiers tokens).error = some error) : ∃ token ∈ tokens, error.line = token.line := by
  fun_induction Survey.ofTokensFrom modifiers tokens with
  | case1 => exact absurd h (by simp)
  | case2 modifiers token rest refused hstep =>
    obtain rfl := Option.some.inj h
    rcases Item.blames_step hstep with hline | ⟨other, hother, hline⟩
    · exact ⟨token, List.mem_cons_self, hline⟩
    · exact ⟨other, List.mem_cons_of_mem _ hother, hline⟩
  | case3 modifiers token rest step hstep hlength survey ih =>
    obtain ⟨other, hother, hline⟩ := ih h
    exact ⟨other, List.mem_cons_of_mem _ ((Item.step_suffix hstep).1.subset hother), hline⟩

end

/-! ### Sources -/

/-- What is returned for a source: functions that are declared one behind the other, each on the line of its keyword and
with a name and types. -/
structure IsListing (source : String) (functions : List ExportedFunction) : Prop where
  declared : ∃ places, List.Forall₂ (DeclaredAfter source.toList) places functions ∧
    places.Pairwise fun earlier later => earlier <+: later ∧ earlier.length < later.length
  ordered : (functions.map ExportedFunction.line).Pairwise (· ≤ ·)
  onLines : ∀ function ∈ functions, 1 ≤ function.line ∧ function.line ≤ source.toList.count '\n' + 1
  named : ∀ function ∈ functions, function.name.toList ∈ Pattern.name
  typed : ∀ function ∈ functions, ∀ type ∈ function.types, type ≠ "" ∧ Text.strip type = type

/-- Places that come one behind the other are on lines that do. -/
theorem ordered_of_declared {source : List Char} {places : List (List Char)} {functions : List ExportedFunction}
    (h : List.Forall₂ (DeclaredAfter source) places functions)
    (hordered : places.Pairwise fun earlier later => earlier <+: later ∧ earlier.length < later.length) :
    (functions.map ExportedFunction.line).Pairwise (· ≤ ·) := by
  have hlines : functions.map ExportedFunction.line = places.map fun place => 1 + place.count '\n' := by
    induction h with
    | nil => rfl
    | cons hplace _ ih => rw [List.map_cons, List.map_cons, hplace.line, ih (List.pairwise_cons.1 hordered).2]
  rw [hlines, List.pairwise_map]
  exact hordered.imp fun hplaces => Nat.add_le_add_left (hplaces.1.sublist.count_le _) 1

theorem line_of_mem_tokens {source : String} (h : Rust.tokens source = .ok tokens) :
    ∀ token ∈ tokens, 1 ≤ token.line ∧ token.line ≤ source.toList.count '\n' + 1 := by
  intro token htoken
  obtain ⟨hfirst, hlast⟩ := line_of_mem_tokensFrom h token htoken
  exact ⟨hfirst, by omega⟩

theorem isListing_of_exportedFunctions {source : String} {functions : List ExportedFunction}
    (h : exportedFunctions source = .ok functions) : IsListing source functions := by
  obtain ⟨tokens, htokens, hfunctions⟩ := exists_tokens_of_exportedFunctions h
  have hfound : functions = (Survey.ofTokens tokens).findings.filterMap Finding.function? := by
    rw [Survey.functions] at hfunctions
    split at hfunctions
    · exact absurd hfunctions (by simp)
    · exact (Except.ok.inj hfunctions).symm
  obtain ⟨places, hplaces, hordered, -⟩ :=
    exists_declarations {} (List.nil_append source.toList).symm (htokens : tokensFrom 1 source.toList = .ok tokens)
  refine ⟨⟨places, hfound ▸ hplaces, hordered⟩, ordered_of_declared (hfound ▸ hplaces) hordered, ?_,
    name_of_mem_exportedFunctions h, ?_⟩
  · intro function hfunction
    rw [hfound] at hfunction
    obtain ⟨keyword, rest, signature, after, hsuffix, -, hread, rfl⟩ := exists_of_mem_findings hfunction
    obtain ⟨name, more, rfl, -, hnamed⟩ := Signature.exists_of_read? hread
    rw [line_of_readNamed hnamed]
    exact line_of_mem_tokens htokens keyword (hsuffix.subset List.mem_cons_self)
  · intro function hfunction type htype
    rcases (written_of_mem_exportedFunctions h htokens function hfunction).of_mem_types type htype with
      rfl | ⟨written, hne, hwithin, rfl⟩
    · exact ⟨by decide, by decide +kernel⟩
    · have htrim : ∀ token ∈ written, token.IsTrim := fun token htoken =>
        isTrim_of_mem_tokens htokens token (hwithin.subset htoken)
      exact ⟨spell_ne_empty htrim hne, strip_spell htrim⟩

theorem line_of_exportedFunctions_error {source : String} {error : SourceError}
    (h : exportedFunctions source = .error error) : 1 ≤ error.line ∧ error.line ≤ source.toList.count '\n' + 1 := by
  rw [exportedFunctions, Survey.ofSource] at h
  split at h
  · rename_i tokens htokens
    rw [Survey.functions] at h
    split at h
    · rename_i refused hrefused
      obtain rfl := Except.error.inj h
      obtain ⟨token, htoken, hline⟩ := exists_of_ofTokensFrom_error hrefused
      rw [hline]
      exact line_of_mem_tokens htokens token htoken
    · exact absurd h (by simp)
  · rename_i refused hrefused
    obtain rfl := Except.error.inj h
    obtain ⟨pieces, left, hsource, -, ⟨-, hok⟩ | ⟨flaw, -, -, herror⟩⟩ := tokens_lossless source
    · exact absurd (hrefused.symm.trans hok) (by simp)
    · obtain rfl := Except.error.inj (hrefused.symm.trans herror)
      rw [hsource, List.count_append]
      dsimp only
      omega

/-- Every source is read to its end or refused, in no other way, and every round of the item loop takes the cursor on.
Functions that are returned are in the order of their keywords and on their lines, with names that can be names and
types that hold something and have no blanks around them; an error is on a line of the source. A reader that asks for
tokens and brackets without looking whether there are any comes to the same. -/
theorem extraction_total (source : String) :
    ((∃ functions, exportedFunctions source = .ok functions ∧ IsListing source functions) ∨
      ∃ error, exportedFunctions source = .error error ∧ 1 ≤ error.line ∧
        error.line ≤ source.toList.count '\n' + 1) ∧
    Access.exportedFunctions source = raised (exportedFunctions source) ∧
    ∀ modifiers token rest step,
      Item.step modifiers token rest = .ok step ∨ Access.step modifiers token rest = .ok step →
        step.rest.length < (token :: rest).length := by
  refine ⟨?_, Access.exportedFunctions_eq source, ?_⟩
  · cases hfunctions : exportedFunctions source with
    | ok functions => exact .inl ⟨functions, rfl, isListing_of_exportedFunctions hfunctions⟩
    | error error => exact .inr ⟨error, rfl, line_of_exportedFunctions_error hfunctions⟩
  · rintro modifiers token rest step (hstep | hstep)
    · exact Nat.lt_succ_of_le (Item.step_length hstep)
    · exact Access.step_length hstep

end FfiBindings.Rust
