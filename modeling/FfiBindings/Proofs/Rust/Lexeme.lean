import FfiBindings.Rust.Spelling
import Mathlib.Tactic.Common

/-!
The ends of tokens. No lexeme but a stretch of blanks begins with a blank, and each way of reading a token stops after
a character that is no blank (`ClosesAt`), so no token has a blank at either end (`isTrim_of_mem_tokens`). Stripping
leaves a spelling that is made of such tokens alone (`strip_spell`), and types of the same tokens are spelled alike
(`spell_congr`).
-/

set_option autoImplicit false
set_option relaxedAutoImplicit false

namespace FfiBindings.Rust

open Text

/-! ### Blanks and words -/

/-- The code points of the blanks. -/
def blankCodes : List Nat :=
  List.range' 0x09 5 ++ List.range' 0x1c 5 ++ [0x85, 0xa0, 0x1680] ++ List.range' 0x2000 11 ++
    [0x2028, 0x2029, 0x202f, 0x205f, 0x3000]

theorem mem_blankCodes {c : Char} (h : isBlank c = true) : c.toNat ∈ blankCodes := by
  simp only [isBlank, Bool.or_eq_true, Bool.and_eq_true, decide_eq_true_eq, beq_iff_eq] at h
  simp only [blankCodes, List.mem_append, List.mem_range'_1, List.mem_cons, List.not_mem_nil, or_false]
  omega

theorem isBlank_of_isWord {c : Char} (h : isWord c = true) : isBlank c = false := by
  by_contra hblank
  rw [Bool.not_eq_false] at hblank
  have hnone : ∀ code ∈ blankCodes, isWord (Char.ofNat code) = false := by decide +kernel
  have hword := hnone c.toNat (mem_blankCodes hblank)
  rw [Char.ofNat_toNat, h] at hword
  exact absurd hword (by simp)

namespace Lexeme

/-! ### Where tokens end -/

/-- The first characters, as many as the size says, end with one that is no blank. -/
def ClosesAt (size : Nat) (cs : List Char) : Prop :=
  ∃ front c rest, cs = front ++ c :: rest ∧ size = front.length + 1 ∧ isBlank c = false

variable {c : Char} {cs rest : List Char} {size : Nat}

theorem closesAt_one (h : isBlank c = false) (rest : List Char) : ClosesAt 1 (c :: rest) :=
  ⟨[], c, rest, rfl, rfl, h⟩

theorem ClosesAt.append (h : ClosesAt size cs) (front : List Char) :
    ClosesAt (size + front.length) (front ++ cs) := by
  obtain ⟨inner, c, rest, rfl, rfl, hblank⟩ := h
  refine ⟨front ++ inner, c, rest, by simp, ?_, hblank⟩
  rw [List.length_append]
  omega

theorem ClosesAt.cons (h : ClosesAt size cs) (c : Char) : ClosesAt (size + 1) (c :: cs) :=
  h.append [c]

/-- Characters that are no blanks end where they end, however many there are. -/
theorem closesAt_takeWhile {p : Char → Bool} (hp : ∀ c, p c = true → isBlank c = false) (h : isBlank c = false)
    (rest : List Char) : ClosesAt (1 + (rest.takeWhile p).length) (c :: rest) := by
  rcases List.eq_nil_or_concat (rest.takeWhile p) with hnil | ⟨front, last, hlast⟩
  · rw [hnil]
    exact closesAt_one h rest
  · have hmem : last ∈ rest.takeWhile p := by
      rw [hlast, List.concat_eq_append]
      exact List.mem_append_right front (List.mem_singleton_self last)
    refine ⟨c :: front, last, rest.dropWhile p, ?_, ?_, hp last (List.all_eq_true.1 List.all_takeWhile last hmem)⟩
    · conv_lhs => rw [← List.takeWhile_append_dropWhile (p := p) (l := rest), hlast]
      simp
    · rw [hlast]
      simp only [List.concat_eq_append, List.length_append, List.length_cons, List.length_nil]
      omega

theorem closesAt_word (h : isBlank c = false) (rest : List Char) : ClosesAt (1 + wordLength rest) (c :: rest) :=
  closesAt_takeWhile (fun _ => isBlank_of_isWord) h rest

theorem closesAt_rawBody {hashes : Nat} (h : rawBodyLength? hashes cs = some size) : ClosesAt size cs := by
  induction cs generalizing size with
  | nil => exact absurd h (by simp [rawBodyLength?])
  | cons c rest ih =>
    unfold rawBodyLength? at h
    split at h
    · rename_i hclosing
      obtain rfl := Option.some.inj h
      rw [Bool.and_eq_true, decide_eq_true_eq, List.isPrefixOf_iff_prefix] at hclosing
      obtain ⟨rfl, after, rfl⟩ := hclosing
      cases hashes with
      | zero => exact closesAt_one (by decide) _
      | succ hashes =>
        refine ⟨'"' :: List.replicate hashes '#', '#', after, ?_, ?_, by decide⟩
        · rw [List.replicate_succ', List.append_assoc]
          rfl
        · rw [List.length_cons, List.length_replicate]
          omega
    · obtain ⟨inner, hinner, rfl⟩ := Option.map_eq_some_iff.1 h
      exact (ih hinner).cons c

theorem closesAt_rawString (h : rawStringLength? cs = some size) : ClosesAt size cs := by
  unfold rawStringLength? at h
  obtain ⟨mark, -, h⟩ := Option.bind_eq_some_iff.1 h
  dsimp only at h
  split at h
  · rename_i body hdrop
    obtain ⟨inner, hinner, rfl⟩ := Option.map_eq_some_iff.1 h
    have hbody := (closesAt_rawBody hinner).cons '"'
    rw [← hdrop] at hbody
    have hlong := congrArg List.length hdrop
    rw [List.length_drop, List.length_cons] at hlong
    have htaken := hbody.append (cs.take (mark + ((cs.drop mark).takeWhile (· == '#')).length))
    rw [List.take_append_drop, List.length_take_of_le (by omega)] at htaken
    convert htaken using 1
    omega
  · exact absurd h (by simp)

theorem closesAt_quotedBody (h : quotedBodyLength? cs = some size) : ClosesAt size cs := by
  fun_induction quotedBodyLength? cs generalizing size with
  | case1 c rest ih =>
    obtain ⟨inner, hinner, rfl⟩ := Option.map_eq_some_iff.1 h
    exact ((ih hinner).cons c).cons '\\'
  | case2 => exact absurd h (by simp)
  | case3 rest =>
    obtain rfl := Option.some.inj h
    exact closesAt_one (by decide) rest
  | case4 c rest _ _ _ ih =>
    obtain ⟨inner, hinner, rfl⟩ := Option.map_eq_some_iff.1 h
    exact (ih hinner).cons c
  | case5 => exact absurd h (by simp)

theorem closesAt_string (h : stringLength? cs = some size) : ClosesAt size cs := by
  rcases Option.or_eq_some_iff.1 h with hraw | ⟨-, hquoted⟩
  · exact closesAt_rawString hraw
  · unfold quotedStringLength? at hquoted
    split at hquoted
    · obtain ⟨inner, hinner, rfl⟩ := Option.map_eq_some_iff.1 hquoted
      exact (closesAt_quotedBody hinner).cons _
    · obtain ⟨inner, hinner, rfl⟩ := Option.map_eq_some_iff.1 hquoted
      exact ((closesAt_quotedBody hinner).cons _).cons _
    · exact absurd hquoted (by simp)

theorem closesAt_charBody (h : charBodyLength? cs = some size) : ClosesAt size cs := by
  unfold charBodyLength? at h
  split at h
  · rename_i rest
    dsimp only at h
    split at h
    · rename_i after hdrop
      split at h
      · exact absurd h (by simp)
      · obtain rfl := Option.some.inj h
        have hlong := congrArg List.length hdrop
        rw [List.length_drop, List.length_cons, List.length_cons] at hlong
        have hquote := ((closesAt_one (c := '\'') (by decide) after).cons '\x7d').append
          (rest.take (rest.takeWhile isHexDigit).length)
        rw [← hdrop, List.take_append_drop, List.length_take_of_le (by omega)] at hquote
        convert ((hquote.cons _).cons _).cons _ using 1
        omega
    · exact absurd h (by simp)
  · rename_i a b rest
    split at h
    · obtain rfl := Option.some.inj h
      exact ((((closesAt_one (by decide) rest).cons b).cons a).cons 'x').cons '\\'
    · split at h
      · rename_i hquote
        obtain rfl := Option.some.inj h
        exact ((closesAt_one (by rw [hquote]; decide) _).cons 'x').cons '\\'
      · exact absurd h (by simp)
  · obtain rfl := Option.some.inj h
    exact ((closesAt_one (by decide) _).cons _).cons '\\'
  · split at h
    · exact absurd h (by simp)
    · obtain rfl := Option.some.inj h
      exact (closesAt_one (by decide) _).cons _
  · exact absurd h (by simp)

theorem closesAt_char (h : charLength? cs = some size) : ClosesAt size cs := by
  unfold charLength? at h
  split at h
  · obtain ⟨inner, hinner, rfl⟩ := Option.map_eq_some_iff.1 h
    exact (closesAt_charBody hinner).cons _
  · obtain ⟨inner, hinner, rfl⟩ := Option.map_eq_some_iff.1 h
    exact ((closesAt_charBody hinner).cons _).cons _
  · exact absurd h (by simp)

theorem isBlank_of_isWordStart (h : isWordStart c = true) : isBlank c = false := by
  rw [isWordStart, Bool.and_eq_true] at h
  exact isBlank_of_isWord h.1

theorem closesAt_lifetime (h : lifetimeLength? cs = some size) : ClosesAt size cs := by
  unfold lifetimeLength? at h
  split at h
  · rename_i c rest
    split at h
    · rename_i hstart
      obtain rfl := Option.some.inj h
      convert (closesAt_word (isBlank_of_isWordStart hstart) rest).cons '\'' using 1
      omega
    · exact absurd h (by simp)
  · exact absurd h (by simp)

theorem closesAt_name (h : nameLength? cs = some size) : ClosesAt size cs := by
  unfold nameLength? at h
  split at h
  · split at h
    · rename_i hstart
      obtain rfl := Option.some.inj h
      exact closesAt_word (isBlank_of_isWordStart hstart) _
    · exact absurd h (by simp)
  · exact absurd h (by simp)

theorem closesAt_ident (h : identLength? cs = some size) : ClosesAt size cs := by
  unfold identLength? at h
  split at h
  · rcases Option.or_eq_some_iff.1 h with hraw | ⟨-, hname⟩
    · obtain ⟨inner, hinner, rfl⟩ := Option.map_eq_some_iff.1 hraw
      exact ((closesAt_name hinner).cons _).cons _
    · exact closesAt_name hname
  · exact closesAt_name h

theorem closesAt_number (h : numberLength? cs = some size) : ClosesAt size cs := by
  unfold numberLength? at h
  split at h
  · rename_i c rest
    split at h
    · rename_i hdecimal
      have hplain := closesAt_word (isBlank_of_isWord (isWord_of_isDecimal hdecimal)) rest
      dsimp only at h
      split at h
      · rename_i d fraction hdrop
        split at h
        · rename_i hnext
          obtain rfl := Option.some.inj h
          have hlong := congrArg List.length hdrop
          rw [List.length_drop, List.length_cons] at hlong
          have htaken := ((closesAt_word (isBlank_of_isWord (isWord_of_isDecimal hnext)) fraction).cons '.').append
            (rest.take (wordLength rest))
          rw [← hdrop, List.take_append_drop, List.length_take_of_le (by omega)] at htaken
          convert htaken.cons c using 1
          omega
        · obtain rfl := Option.some.inj h
          exact hplain
      · obtain rfl := Option.some.inj h
        exact hplain
    · exact absurd h (by simp)
  · exact absurd h (by simp)

theorem closesAt_literalOrName {kind : Token.Kind} (h : literalOrName? cs = some (kind, size)) :
    ClosesAt size cs := by
  have hsome {length? : Option Nat} {written : Token.Kind} (h : length?.map (written, ·) = some (kind, size)) :
      length? = some size := by
    obtain ⟨inner, hinner, heq⟩ := Option.map_eq_some_iff.1 h
    rw [hinner, (Prod.mk.inj heq).2]
  rcases Option.or_eq_some_iff.1 h with h | ⟨-, h⟩
  · rcases Option.or_eq_some_iff.1 h with h | ⟨-, h⟩
    · rcases Option.or_eq_some_iff.1 h with h | ⟨-, h⟩
      · rcases Option.or_eq_some_iff.1 h with h | ⟨-, h⟩
        · exact closesAt_string (hsome h)
        · exact closesAt_char (hsome h)
      · exact closesAt_lifetime (hsome h)
    · exact closesAt_ident (hsome h)
  · exact closesAt_number (hsome h)

theorem closesAt_punct (h : isBlank c = false) (rest : List Char) :
    ClosesAt (punctLength (c :: rest)) (c :: rest) := by
  generalize htext : c :: rest = text
  unfold punctLength
  split
  · exact (closesAt_one (by decide) _).cons ':'
  · exact (closesAt_one (by decide) _).cons '-'
  · exact (closesAt_one (by decide) _).cons '='
  · exact ((closesAt_one (by decide) _).cons '.').cons '.'
  · exact ((closesAt_one (by decide) _).cons '.').cons '.'
  · exact (closesAt_one (by decide) _).cons '.'
  · exact htext ▸ closesAt_one h rest

/-- A token neither begins nor ends with a blank. -/
theorem closesAt_first {kind : Token.Kind} (h : first c rest = .ok (.token kind, size)) :
    isBlank c = false ∧ ClosesAt size (c :: rest) := by
  unfold first at h
  dsimp only at h
  split at h
  · split at h
    · exact absurd h (by simp)
    · exact absurd h (by simp)
  split at h
  · exact absurd h (by simp)
  rename_i hblank
  have hblank : isBlank c = false := by simpa using hblank
  refine ⟨hblank, ?_⟩
  split at h
  · exact absurd h (by simp)
  split at h
  · rename_i written length hread
    simp only [Except.ok.injEq, Prod.mk.injEq, Lexeme.token.injEq] at h
    obtain ⟨rfl, rfl⟩ := h
    exact closesAt_literalOrName hread
  · split at h
    · exact absurd h (by simp)
    · simp only [Except.ok.injEq, Prod.mk.injEq, Lexeme.token.injEq] at h
      obtain ⟨rfl, rfl⟩ := h
      exact closesAt_punct hblank rest

end Lexeme

/-! ### Tokens -/

/-- A token with no blank at either end. -/
structure Token.IsTrim (token : Token) : Prop where
  first : ∃ c, token.text.toList.head? = some c ∧ isBlank c = false
  last : ∃ c, token.text.toList.getLast? = some c ∧ isBlank c = false

theorem isTrim_of_mem_pieces {line : Nat} {cs : List Char} {pieces : List Piece}
    (h : piecesFrom line cs = .ok pieces) : ∀ piece ∈ pieces, ∀ token, piece.token? = some token →
      token.IsTrim := by
  fun_induction piecesFrom line cs generalizing pieces with
  | case1 => simp_all
  | case2 => simp at h
  | case3 => simp at h
  | case4 line c rest lexeme size hfirst text tail htail =>
    rename_i ih
    obtain rfl := Except.ok.inj h
    intro piece hpiece token htoken
    rcases List.mem_cons.1 hpiece with rfl | htail'
    · unfold Piece.token? at htoken
      split at htoken
      · rename_i kind hkind
        obtain rfl := Option.some.inj htoken
        dsimp only at hkind
        subst hkind
        obtain ⟨hblank, front, last, after, hcs, rfl, hlast⟩ := Lexeme.closesAt_first hfirst
        refine ⟨⟨c, ?_, hblank⟩, ⟨last, ?_, hlast⟩⟩
        · rw [String.toList_ofList]
          rfl
        · have htext : text = (c :: rest).take (front.length + 1) := by simp [text]
          rw [String.toList_ofList, htext, hcs, List.take_append, List.take_of_length_le (by omega)]
          simp
      · exact absurd htoken (by simp)
    · exact ih htail piece htail' token htoken

/-- No token of a source has a blank at either end. -/
theorem isTrim_of_mem_tokens {source : String} {tokens : List Token} (h : Rust.tokens source = .ok tokens) :
    ∀ token ∈ tokens, token.IsTrim := by
  rw [Rust.tokens] at h
  cases hpieces : piecesFrom 1 source.toList with
  | error error =>
    rw [hpieces] at h
    exact absurd h (by simp [Except.map])
  | ok pieces =>
    rw [hpieces] at h
    obtain rfl := Except.ok.inj h
    intro token hmem
    obtain ⟨piece, hpiece, htoken⟩ := List.mem_filterMap.1 hmem
    exact isTrim_of_mem_pieces hpieces piece hpiece token htoken

/-! ### Spellings -/

theorem getLast?_spellAfter (previous : Token) {tokens : List Token} (h : ∀ token ∈ tokens, token.IsTrim)
    (hne : tokens ≠ []) : ∃ c, (spellAfter previous tokens).toList.getLast? = some c ∧ isBlank c = false := by
  induction tokens generalizing previous with
  | nil => exact absurd rfl hne
  | cons token rest ih =>
    rw [spellAfter, String.toList_append, List.getLast?_append]
    by_cases hrest : rest = []
    · obtain ⟨c, hlast, hblank⟩ := (h token List.mem_cons_self).last
      refine ⟨c, ?_, hblank⟩
      rw [hrest, String.toList_append, List.getLast?_append, hlast]
      rfl
    · obtain ⟨c, hlast, hblank⟩ := ih token (fun other hmem => h other (List.mem_cons_of_mem _ hmem)) hrest
      exact ⟨c, by rw [hlast, Option.some_or], hblank⟩

/-- Stripping leaves the spelling of tokens as it is. -/
theorem strip_spell {tokens : List Token} (h : ∀ token ∈ tokens, token.IsTrim) :
    strip (spell tokens) = spell tokens := by
  cases tokens with
  | nil => rfl
  | cons token rest =>
    obtain ⟨⟨c, hfirst, hfront⟩, d, hlast, hback⟩ := h token List.mem_cons_self
    have hends : ∃ c, (spell (token :: rest)).toList.getLast? = some c ∧ isBlank c = false := by
      rw [spell, String.toList_append, List.getLast?_append]
      by_cases hrest : rest = []
      · exact ⟨d, by rw [hrest, hlast]; rfl, hback⟩
      · obtain ⟨e, hafter, hblank⟩ :=
          getLast?_spellAfter token (fun other hmem => h other (List.mem_cons_of_mem _ hmem)) hrest
        exact ⟨e, by rw [hafter, Option.some_or], hblank⟩
    have hstripped : stripChars (spell (token :: rest)).toList = (spell (token :: rest)).toList := by
      rw [stripChars_eq_self_iff]
      constructor
      · intro e he
        rw [spell, String.toList_append, List.head?_append, hfirst, Option.some_or, Option.some.injEq] at he
        exact he ▸ hfront
      · intro e he
        obtain ⟨f, hf, hblank⟩ := hends
        rw [hf, Option.some.injEq] at he
        exact he ▸ hblank
    rw [strip, hstripped, String.ofList_toList]

/-- What a token is, wherever it stands. -/
def Token.written (token : Token) : Token.Kind × String :=
  (token.kind, token.text)

theorem Token.isPunct_congr {token other : Token} (h : token.written = other.written) :
    token.isPunct = other.isPunct := by
  obtain ⟨hkind, htext⟩ := Prod.mk.inj h
  funext text
  rw [isPunct, isPunct, hkind, htext]

theorem isSpaced_congr {previous next other later : Token} (hprevious : previous.written = other.written)
    (hnext : next.written = later.written) : isSpaced previous next = isSpaced other later := by
  rw [isSpaced, isSpaced, Token.isPunct_congr hprevious, Token.isPunct_congr hnext,
    (Prod.mk.inj hprevious).1, (Prod.mk.inj hnext).1]

theorem spellAfter_congr {previous other : Token} {tokens more : List Token}
    (hprevious : previous.written = other.written) (h : tokens.map Token.written = more.map Token.written) :
    spellAfter previous tokens = spellAfter other more := by
  induction tokens generalizing previous other more with
  | nil =>
    obtain rfl := List.map_eq_nil_iff.1 h.symm
    rfl
  | cons token rest ih =>
    cases more with
    | nil => exact absurd h (by simp)
    | cons next others =>
      rw [List.map_cons, List.map_cons, List.cons.injEq] at h
      rw [spellAfter, spellAfter, isSpaced_congr hprevious h.1, ih h.1 h.2, (Prod.mk.inj h.1).2]

/-- Types that are written with the same tokens are spelled alike, whatever stands between the tokens. -/
theorem spell_congr {tokens more : List Token} (h : tokens.map Token.written = more.map Token.written) :
    spell tokens = spell more := by
  cases tokens with
  | nil =>
    obtain rfl := List.map_eq_nil_iff.1 h.symm
    rfl
  | cons token rest =>
    cases more with
    | nil => exact absurd h (by simp)
    | cons next others =>
      rw [List.map_cons, List.map_cons, List.cons.injEq] at h
      rw [spell, spell, spellAfter_congr h.1 h.2, (Prod.mk.inj h.1).2]

end FfiBindings.Rust
