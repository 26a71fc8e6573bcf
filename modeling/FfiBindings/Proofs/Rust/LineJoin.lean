import FfiBindings.Proofs.Rust.Lossless

/-!
Sources that are joined at a line feed. What follows a line feed is cut as if it stood alone, that many lines further
down, for a lexeme that is read to its end in front of the line feed is the same lexeme whatever comes behind it: only
blanks, comments and literals may hold a line feed at all, blanks make no tokens, and a block comment or a literal that
was not ended in front of the line feed would have been an error there (`Heads.append_line`). One literal may be open
unnoticed: a raw string with hashes reads as a name, hashes and a plain string until the quote with its hashes comes.
So `tokens_joined` asks that no hash and quote stand together in front, or that no quote comes behind.
-/

set_option autoImplicit false
set_option relaxedAutoImplicit false

namespace FfiBindings.Rust

open Text Pattern
open scoped Computability

/-! ### The first lexeme is the one that heads the text -/

namespace Lexeme

variable {lexeme other : Lexeme} {text cs after : List Char}

theorem eq_or_precedes (lexeme other : Lexeme) :
    lexeme = other ∨ lexeme ∈ precedence.takeWhile (· != other) ∨ other ∈ precedence.takeWhile (· != lexeme) := by
  have hall : ∀ lexeme ∈ precedence, ∀ other ∈ precedence, lexeme = other ∨
      lexeme ∈ precedence.takeWhile (· != other) ∨ other ∈ precedence.takeWhile (· != lexeme) := by decide
  have hmem (lexeme : Lexeme) : lexeme ∈ precedence := by
    cases lexeme with
    | token kind => cases kind <;> decide
    | _ => decide
  exact hall lexeme (hmem lexeme) other (hmem other)

/-- One lexeme heads a text, and it heads it with one text of its own. -/
theorem Heads.unique {longer left : List Char} (h : Heads lexeme text after) (hother : Heads other longer left)
    (heq : text ++ after = longer ++ left) : lexeme = other ∧ text = longer := by
  obtain rfl | hearlier | hearlier := eq_or_precedes lexeme other
  · have hle := h.longest longer hother.mem ⟨left, heq.symm⟩
    have hge := hother.longest text h.mem ⟨after, heq⟩
    exact ⟨rfl, (List.append_inj heq (Nat.le_antisymm hge hle)).1⟩
  · exact absurd ⟨after, heq⟩ (hother.earliest lexeme hearlier text h.mem)
  · exact absurd ⟨left, heq.symm⟩ (h.earliest other hearlier longer hother.mem)

/-- Where a lexeme heads a text, nothing is stuck. -/
theorem Heads.not_stuck {flaw : Flaw} (h : Heads lexeme text after) : ¬Stuck (text ++ after) flaw := by
  intro hstuck
  cases flaw with
  | openComment =>
    by_cases hcomment : lexeme = .blockComment
    · exact hstuck.2 text (hcomment ▸ h.mem) (List.prefix_append text after)
    · exact h.closed hcomment hstuck.1
  | openLiteral => exact hstuck.2 lexeme text h.mem (List.prefix_append text after)
  | _ => exact hstuck

theorem first_of_heads {c : Char} {inner : List Char} (h : Heads lexeme (c :: inner) after) :
    first c (inner ++ after) = .ok (lexeme, inner.length + 1) := by
  obtain ⟨found, longer, left, hcs, hheads, hok⟩ | ⟨flaw, hstuck, -⟩ := first_cases c (inner ++ after)
  · obtain ⟨rfl, rfl⟩ := h.unique hheads hcs
    exact hok
  · exact absurd hstuck h.not_stuck

/-- Along the lexemes of a text, up to its end or to where no lexeme begins. -/
@[elab_as_elim]
theorem source_induction {motive : List Char → Prop} (nil : motive [])
    (heads : ∀ (lexeme : Lexeme) (text after : List Char), lexeme.Heads text after → motive after →
      motive (text ++ after))
    (stuck : ∀ (c : Char) (rest : List Char) (flaw : Flaw), first c rest = .error flaw → motive (c :: rest)) :
    ∀ cs, motive cs
  | [] => nil
  | c :: rest => by
    rcases first_cases c rest with ⟨lexeme, text, after, hcs, hheads, -⟩ | ⟨flaw, -, herror⟩
    · have hshorter : after.length < (c :: rest).length := by
        rw [hcs, List.length_append]
        exact Nat.lt_add_of_pos_left (List.length_pos_iff.2 hheads.nonempty)
      rw [hcs]
      exact heads lexeme text after hheads (source_induction nil heads stuck after)
    · exact stuck c rest flaw herror
termination_by cs => cs.length
decreasing_by exact hshorter

end Lexeme

open Lexeme

/-! ### The tokens of a text that begins on a given line -/

def tokensFrom (line : Nat) (cs : List Char) : Except SourceError (List Token) :=
  (piecesFrom line cs).map (·.filterMap Piece.token?)

theorem tokens_eq (source : String) : tokens source = tokensFrom 1 source.toList := rfl

theorem tokensFrom_nil (line : Nat) : tokensFrom line [] = .ok [] := by
  rw [tokensFrom, piecesFrom]
  rfl

theorem tokensFrom_of_heads (line : Nat) {lexeme : Lexeme} {text after : List Char} (h : lexeme.Heads text after) :
    tokensFrom line (text ++ after) = (tokensFrom (line + text.count '\n') after).map
      ((Piece.token? ⟨lexeme, text, line⟩).toList ++ ·) := by
  obtain ⟨c, inner, rfl⟩ := List.exists_cons_of_ne_nil h.nonempty
  have hfirst := Lexeme.first_of_heads h
  rw [tokensFrom, tokensFrom, List.cons_append, piecesFrom, hfirst]
  simp only [Nat.add_sub_cancel, List.take_left, List.drop_left]
  cases piecesFrom (line + (c :: inner).count '\n') after with
  | error error => rfl
  | ok pieces =>
    simp only [Except.map, List.filterMap_cons]
    cases Piece.token? ⟨lexeme, c :: inner, line⟩ <;> rfl

theorem tokensFrom_of_first_error (line : Nat) {c : Char} {rest : List Char} {flaw : Flaw}
    (h : Lexeme.first c rest = .error flaw) : tokensFrom line (c :: rest) = .error ⟨flaw, line⟩ := by
  rw [tokensFrom, piecesFrom, h]
  rfl

/-! ### Blanks -/

theorem Lexeme.first_of_isBlank {c : Char} (h : isBlank c = true) (rest : List Char) :
    first c rest = .ok (.blanks, ((c :: rest).takeWhile isBlank).length) := by
  have hslash : c ≠ '/' := by
    rintro rfl
    exact absurd h (by decide)
  have hmarker (d : Char) : ['/', d].isPrefixOf (c :: rest) = false := by
    simp [List.isPrefixOf, Ne.symm hslash]
  simp only [first, hmarker, h, Bool.false_eq_true, if_false, if_true]

theorem tokensFrom_takeWhile (line : Nat) (cs : List Char) :
    tokensFrom line cs = tokensFrom (line + (cs.takeWhile isBlank).count '\n') (cs.dropWhile isBlank) := by
  cases cs with
  | nil => rfl
  | cons c rest =>
    by_cases hblank : isBlank c = true
    · have hheads := Lexeme.heads_of_first (Lexeme.first_of_isBlank hblank rest)
      rw [List.takeWhile_cons_of_pos hblank, List.length_cons, Nat.add_sub_cancel,
        ← List.prefix_iff_eq_take.1 (List.takeWhile_prefix isBlank), ← List.takeWhile_cons_of_pos hblank] at hheads
      have hdrop : rest.drop (rest.takeWhile isBlank).length = (c :: rest).dropWhile isBlank := by
        rw [List.dropWhile_cons_of_pos hblank]
        apply List.append_right_injective (rest.takeWhile isBlank)
        dsimp only
        rw [List.takeWhile_append_dropWhile, List.prefix_iff_eq_append.1 (List.takeWhile_prefix isBlank)]
      rw [hdrop] at hheads
      have hread := tokensFrom_of_heads line hheads
      rw [List.takeWhile_append_dropWhile] at hread
      rw [hread]
      cases tokensFrom (line + ((c :: rest).takeWhile isBlank).count '\n') ((c :: rest).dropWhile isBlank) <;> rfl
    · rw [List.takeWhile_cons_of_neg hblank, List.dropWhile_cons_of_neg hblank]
      rfl

/-- Blanks before a text leave its tokens as they are and move them down by their line feeds. -/
theorem tokensFrom_blanks (line : Nat) {blanks : List Char} (h : ∀ c ∈ blanks, isBlank c = true) (cs : List Char) :
    tokensFrom line (blanks ++ cs) = tokensFrom (line + blanks.count '\n') cs := by
  rw [tokensFrom_takeWhile, tokensFrom_takeWhile _ cs, List.takeWhile_append_of_pos h, List.dropWhile_append_of_pos h,
    List.count_append, Nat.add_assoc]

theorem tokensFrom_lineFeed (line : Nat) (cs : List Char) : tokensFrom line ('\n' :: cs) = tokensFrom (line + 1) cs :=
  tokensFrom_blanks line (List.forall_mem_singleton.2 (by decide)) cs

/-! ### Lines further down -/

def Token.below (lines : Nat) (token : Token) : Token :=
  { token with line := token.line + lines }

def SourceError.below (lines : Nat) (error : SourceError) : SourceError :=
  { error with line := error.line + lines }

/-- What comes of a text that stands so many lines further down. -/
def below (lines : Nat) : Except SourceError (List Token) → Except SourceError (List Token)
  | .ok tokens => .ok (tokens.map (Token.below lines))
  | .error error => .error (error.below lines)

theorem tokensFrom_add (line lines : Nat) (cs : List Char) :
    tokensFrom (line + lines) cs = below lines (tokensFrom line cs) := by
  induction cs using source_induction generalizing line with
  | nil =>
    rw [tokensFrom_nil, tokensFrom_nil]
    rfl
  | heads lexeme text after hheads ih =>
    have hpiece : (Piece.token? ⟨lexeme, text, line + lines⟩).toList =
        (Piece.token? ⟨lexeme, text, line⟩).toList.map (Token.below lines) := by
      cases lexeme <;> rfl
    rw [tokensFrom_of_heads _ hheads, tokensFrom_of_heads _ hheads, Nat.add_right_comm, ih, hpiece]
    cases tokensFrom (line + text.count '\n') after with
    | error error => rfl
    | ok tokens =>
      show Except.ok _ = Except.ok _
      rw [List.map_append]
  | stuck c rest flaw hstuck =>
    rw [tokensFrom_of_first_error _ hstuck, tokensFrom_of_first_error _ hstuck]
    rfl

/-! ### Lexemes that hold a line feed -/

section Reaching

variable {cs front tail text more : List Char}

/-- A text in front of a line feed is a text in front of both, or it goes on behind the line feed. -/
theorem prefix_or_reaches (h : text <+: cs ++ '\n' :: more) : text <+: cs ∨ cs ++ ['\n'] <+: text := by
  rw [List.append_cons] at h
  rcases Nat.lt_or_ge cs.length text.length with hlong | hshort
  · refine .inr (List.prefix_of_prefix_length_le (List.prefix_append _ more) h ?_)
    rwa [List.length_append, List.length_singleton]
  · rw [← List.append_cons] at h
    exact .inl (List.prefix_of_prefix_length_le h (List.prefix_append cs _) hshort)

/-- Where the beginning of a text holds no line feed, one that comes later stands behind it. -/
theorem exists_of_reaches (hfront : '\n' ∉ front) (h : cs ++ ['\n'] <+: front ++ tail) :
    ∃ rest, cs = front ++ rest ∧ rest ++ ['\n'] <+: tail := by
  obtain ⟨left, hleft⟩ := h
  rw [← List.append_cons] at hleft
  rcases List.append_eq_append_iff.1 hleft with ⟨beyond, rfl, hover⟩ | ⟨rest, rfl, htail⟩
  · cases beyond with
    | nil => exact ⟨[], by simp, left, hover⟩
    | cons c beyond =>
      obtain ⟨rfl, -⟩ := List.cons.inj hover
      exact absurd (List.mem_append_right cs List.mem_cons_self) hfront
  · exact ⟨rest, rfl, left, by rw [htail, ← List.append_cons]⟩

theorem isWord_of_mem_name (h : text ∈ name) : ∀ c ∈ text, isWord c = true := by
  obtain ⟨c, word, rfl, hstart, hword⟩ := mem_one_mul.1 h
  rw [isWordStart, Bool.and_eq_true] at hstart
  exact List.forall_mem_cons.2 ⟨hstart.1, mem_many.1 hword⟩

theorem lineFeed_notMem_of_isWord (h : ∀ c ∈ text, isWord c = true) : '\n' ∉ text := fun hmem =>
  absurd (h '\n' hmem) (by decide)

/-- Names, numbers, marks and line comments hold no line feed. -/
theorem lineFeed_notMem {lexeme : Lexeme}
    (hinline : lexeme ∈ [.lineComment, .token .lifetime, .token .ident, .token .number, .token .punct])
    (h : text ∈ lexeme.language) : '\n' ∉ text := by
  simp only [List.mem_cons, List.not_mem_nil, or_false] at hinline
  rcases hinline with rfl | rfl | rfl | rfl | rfl
  · obtain ⟨tail, rfl, htail⟩ := mem_exactly_mul.1 h
    intro hmem
    rcases List.mem_append.1 hmem with hslash | hmem
    · exact absurd hslash (by decide)
    · exact absurd (mem_many.1 htail '\n' hmem) (by decide)
  · obtain ⟨tail, rfl, htail⟩ := mem_exactly_mul.1 h
    rw [List.mem_append, not_or]
    exact ⟨by decide, lineFeed_notMem_of_isWord (isWord_of_mem_name htail)⟩
  · rcases mem_optional_mul.1 h with hname | hraw
    · exact lineFeed_notMem_of_isWord (isWord_of_mem_name hname)
    · obtain ⟨tail, rfl, htail⟩ := mem_exactly_mul.1 hraw
      rw [List.mem_append, not_or]
      exact ⟨by decide, lineFeed_notMem_of_isWord (isWord_of_mem_name htail)⟩
  · have hword {c : Char} (hc : isDecimal c = true) {word : List Char} (h : word ∈ (one isWord)∗) : '\n' ∉ c :: word :=
      lineFeed_notMem_of_isWord (List.forall_mem_cons.2 ⟨isWord_of_isDecimal hc, mem_many.1 h⟩)
    obtain ⟨c, rest, rfl, hc, hrest⟩ := mem_one_mul.1 h
    obtain ⟨word, hmany, fraction, hfraction, rfl⟩ := Language.mem_mul.1 hrest
    rw [← List.cons_append, List.mem_append, not_or]
    refine ⟨hword hc hmany, ?_⟩
    rcases hfraction with rfl | hfraction
    · exact List.not_mem_nil
    · obtain ⟨digits, rfl, hdigits⟩ := mem_exactly_mul.1 hfraction
      obtain ⟨d, more, rfl, hd, hmore⟩ := mem_one_mul.1 hdigits
      rw [List.mem_append, not_or]
      exact ⟨by decide, hword hd hmore⟩
  · rcases h with (((((rfl | rfl) | rfl) | rfl) | rfl) | rfl) | ⟨c, hc, rfl⟩
    any_goals decide
    intro hmem
    obtain rfl := List.mem_singleton.1 hmem
    exact absurd hc (by decide)

/-! ### Literals that are left open -/

theorem quotedBodyLength?_eq_none (h : '"' ∉ cs) : quotedBodyLength? cs = none := by
  rw [Option.eq_none_iff_forall_ne_some]
  intro size hsize
  obtain ⟨text, htext, rest, rfl, -⟩ := measures_quotedBody.mem hsize
  obtain ⟨body, -, _, rfl, rfl⟩ := Language.mem_mul.1 htext
  exact h (List.mem_append_left rest (List.mem_append_right body List.mem_cons_self))

/-- Neither a name nor a number nor a mark begins with a quote. -/
theorem first_quote {quote : Char} (hquote : quote = '"' ∨ quote = '\'')
    (hstring : stringLength? (quote :: cs) = none) (hchar : charLength? (quote :: cs) = none)
    (hlifetime : lifetimeLength? (quote :: cs) = none) : first quote cs = .error .openLiteral := by
  have hblank : isBlank quote = false := by rcases hquote with rfl | rfl <;> decide
  have hslash : quote ≠ '/' := by rcases hquote with rfl | rfl <;> decide
  have hident : identLength? (quote :: cs) = none := by rcases hquote with rfl | rfl <;> rfl
  have hnumber : numberLength? (quote :: cs) = none := by rcases hquote with rfl | rfl <;> rfl
  simp [first, literalOrName?, hstring, hchar, hlifetime, hident, hnumber, hblank, hslash.symm, hquote]

/-- Letters that introduce a literal are a name where they introduce none. -/
theorem first_letters {c quote : Char} {letters : List Char} (hletters : c :: letters ∈ [['b'], ['r'], ['b', 'r']])
    (hquote : quote = '"' ∨ quote = '\'') (hstring : stringLength? (c :: (letters ++ quote :: cs)) = none)
    (hchar : charLength? (c :: (letters ++ quote :: cs)) = none) :
    first c (letters ++ quote :: cs) = .ok (.token .ident, letters.length + 1) := by
  simp only [List.mem_cons, List.cons.injEq, List.not_mem_nil, or_false] at hletters
  have hname : identLength? (c :: (letters ++ quote :: cs)) = some (letters.length + 1) := by
    rcases hletters with ⟨rfl, rfl⟩ | ⟨rfl, rfl⟩ | ⟨rfl, rfl⟩ <;> rcases hquote with rfl | rfl <;> rfl
  have hc : c = 'b' ∨ c = 'r' := by
    rcases hletters with ⟨rfl, -⟩ | ⟨rfl, -⟩ | ⟨rfl, -⟩ <;> decide
  have hlifetime : lifetimeLength? (c :: (letters ++ quote :: cs)) = none := by rcases hc with rfl | rfl <;> rfl
  have hblank : isBlank c = false := by rcases hc with rfl | rfl <;> decide
  have hslash : '/' ≠ c := by rcases hc with rfl | rfl <;> decide
  simp [first, literalOrName?, hstring, hchar, hlifetime, hname, hblank, hslash]

/-- Where a quote begins nothing and the letters before it introduce no literal, the text is not cut to its end. -/
theorem exists_error_of_open {quote : Char} {letters : List Char} (hletters : letters ∈ [[], ['b'], ['r'], ['b', 'r']])
    (hquote : quote = '"' ∨ quote = '\'') (hstring : stringLength? (letters ++ quote :: cs) = none)
    (hchar : charLength? (letters ++ quote :: cs) = none) (hopen : first quote cs = .error .openLiteral) (line : Nat) :
    ∃ error, tokensFrom line (letters ++ quote :: cs) = .error error := by
  cases letters with
  | nil => exact ⟨_, tokensFrom_of_first_error line hopen⟩
  | cons c letters =>
    have hname := first_letters (by simpa using hletters) hquote hstring hchar
    have hheads := heads_of_first hname
    rw [Nat.add_sub_cancel, List.take_left, List.drop_left] at hheads
    rw [tokensFrom_of_heads line hheads, tokensFrom_of_first_error _ hopen]
    exact ⟨_, rfl⟩

/-- Nothing of a kind that ends by itself begins a text which a longer one of that kind reaches over. -/
theorem length?_eq_none_of_reaches {length? : List Char → Option Nat} {language : Language Char}
    (hmeasures : Measures length? language) (hdelimits : Delimits length? language) (htext : text ∈ language)
    (hreaches : cs ++ ['\n'] <+: text) : length? cs = none := by
  rw [Option.eq_none_iff_forall_ne_some]
  intro size hsize
  obtain ⟨front, hfront, rest, rfl, -⟩ := hmeasures.mem hsize
  have hstarts : front <+: text := (List.prefix_append front rest).trans ((List.prefix_append _ _).trans hreaches)
  obtain rfl := hdelimits.eq_of_startsWith hfront htext hstarts
  have hlength := hreaches.length_le
  rw [List.length_append, List.length_append, List.length_singleton] at hlength
  omega

theorem exists_letters {mark : Char} {language : Language Char}
    (h : text ∈ (1 + exactly ['b']) * (exactly [mark] * language)) :
    ∃ letters ∈ [[], ['b']], ∃ inner ∈ language, text = letters ++ mark :: inner := by
  rcases mem_optional_mul.1 h with hplain | hbytes
  · obtain ⟨inner, rfl, hinner⟩ := mem_exactly_mul.1 hplain
    exact ⟨[], by simp, inner, hinner, rfl⟩
  · obtain ⟨marked, rfl, hmarked⟩ := mem_exactly_mul.1 hbytes
    obtain ⟨inner, rfl, hinner⟩ := mem_exactly_mul.1 hmarked
    exact ⟨['b'], by simp, inner, hinner, rfl⟩

/-- A line feed in a character literal is one behind a backslash. -/
theorem eq_escape_of_mem_charPart (h : text ∈ charPart) (hmem : '\n' ∈ text) : text = ['\\', '\n'] := by
  have hhex {c : Char} (hc : isHexDigit c = true) : '\n' ≠ c := by
    rintro rfl
    exact absurd hc (by decide)
  rcases h with ((hcode | hbyte) | hescape) | ⟨c, hc, rfl⟩
  · obtain ⟨front, hfront, _, rfl, rfl⟩ := Language.mem_mul.1 hcode
    obtain ⟨digits, rfl, hdigits⟩ := mem_exactly_mul.1 hfront
    simp only [List.cons_append, List.nil_append, List.mem_cons, List.mem_append, List.not_mem_nil, or_false] at hmem
    rcases hmem with hmem | hmem | hmem | hmem | hmem
    · exact absurd hmem (by decide)
    · exact absurd hmem (by decide)
    · exact absurd hmem (by decide)
    · exact absurd rfl (hhex ((mem_run.1 hdigits).2 '\n' hmem))
    · exact absurd hmem (by decide)
  · obtain ⟨front, hfront, _, ⟨b, hb, rfl⟩, rfl⟩ := Language.mem_mul.1 hbyte
    obtain ⟨_, rfl, a, ha, rfl⟩ := mem_exactly_mul.1 hfront
    simp [hhex ha, hhex hb] at hmem
  · obtain ⟨_, rfl, c, -, rfl⟩ := mem_exactly_mul.1 hescape
    obtain rfl : '\n' = c := by simpa using hmem
    rfl
  · obtain rfl := List.mem_singleton.1 hmem
    exact absurd hc (by decide)

/-- A text that goes over a line feed and ends without one goes over it in what comes before that end. -/
theorem reaches_of_notMem (htail : '\n' ∉ tail) (h : cs ++ ['\n'] <+: front ++ tail) : cs ++ ['\n'] <+: front := by
  obtain ⟨left, hleft⟩ := h
  rcases List.append_eq_append_iff.1 hleft with ⟨beyond, rfl, -⟩ | ⟨rest, hrest, rfl⟩
  · exact List.prefix_append _ beyond
  · rcases List.eq_nil_or_concat rest with rfl | ⟨inner, last, rfl⟩
    · rw [hrest, List.append_nil]
    · rw [List.concat_eq_append, ← List.append_assoc] at hrest
      obtain ⟨-, hlast⟩ := List.append_inj' hrest rfl
      obtain rfl := (List.cons.inj hlast).1
      exact absurd (by simp) htail

theorem notMem_of_letters {letters : List Char} (h : letters ∈ [[], ['b']]) : '\n' ∉ letters := by
  rcases List.mem_pair.1 h with rfl | rfl <;> decide

/-- A character literal that goes over the end of a line is open there. -/
theorem exists_error_of_char (htext : text ∈ Token.Kind.pattern .char) (hreaches : cs ++ ['\n'] <+: text) (line : Nat) :
    ∃ error, tokensFrom line cs = .error error := by
  have hchar := length?_eq_none_of_reaches measures_char delimits_char htext hreaches
  obtain ⟨letters, hletters, inner, hinner, rfl⟩ := exists_letters htext
  obtain ⟨part, hpart, _, rfl, rfl⟩ := Language.mem_mul.1 hinner
  have hmem : '\n' ∈ part := by
    have hall := hreaches.subset (List.mem_append_right cs (List.mem_singleton_self _))
    simpa [notMem_of_letters hletters] using hall
  obtain rfl := eq_escape_of_mem_charPart hpart hmem
  have hfront : '\n' ∉ letters ++ ['\'', '\\'] := by
    rw [List.mem_append, not_or]
    exact ⟨notMem_of_letters hletters, by decide⟩
  have htext : letters ++ '\'' :: (['\\', '\n'] ++ ['\'']) = letters ++ ['\'', '\\'] ++ (['\n'] ++ ['\'']) := by simp
  rw [htext] at hreaches
  obtain ⟨rest, rfl, hrest⟩ := exists_of_reaches hfront hreaches
  have hlength := (reaches_of_notMem (by decide) hrest).length_le
  obtain rfl : rest = [] := List.length_eq_zero_iff.1 (by simpa using hlength)
  rw [List.append_nil] at hchar ⊢
  refine exists_error_of_open ?_ (.inr rfl) ?_ hchar (first_quote (.inr rfl) rfl rfl rfl) line
  · rcases List.mem_pair.1 hletters with rfl | rfl <;> decide
  · rcases List.mem_pair.1 hletters with rfl | rfl <;> rfl

theorem stringLength?_quote : stringLength? ('"' :: cs) = (quotedBodyLength? cs).map (· + 1) := rfl

/-- A string or a raw string that goes over the end of a line is open there, unless it is taken for something else: a
raw string with hashes that ends on a later line. -/
theorem exists_error_of_string (htext : text ∈ Token.Kind.pattern .string) (hreaches : cs ++ ['\n'] <+: text)
    (hinside : text <+: cs ++ '\n' :: more) (hmark : ¬['#', '"'] <:+: cs ∨ '"' ∉ more) (line : Nat) :
    ∃ error, tokensFrom line cs = .error error := by
  have hstring := length?_eq_none_of_reaches measures_string delimits_string htext hreaches
  have hopen {body : List Char} (hbody : quotedBodyLength? body = none) : first '"' body = .error .openLiteral :=
    first_quote (.inl rfl) (by rw [stringLength?_quote, hbody]; rfl) rfl rfl
  rcases htext with hraw | hquoted
  · obtain ⟨letters, hletters, inner, ⟨hashes, body, rfl, hbody⟩, rfl⟩ := exists_letters hraw
    have hnone : '\n' ∉ '"' :: List.replicate hashes '#' := by simp
    have hfront : '\n' ∉ letters ++ 'r' :: (List.replicate hashes '#' ++ ['"']) := by
      simp [notMem_of_letters hletters]
    have htext : letters ++ 'r' :: (List.replicate hashes '#' ++ '"' :: (body ++ '"' :: List.replicate hashes '#')) =
        letters ++ 'r' :: (List.replicate hashes '#' ++ ['"']) ++ (body ++ '"' :: List.replicate hashes '#') := by simp
    rw [htext] at hreaches hinside
    obtain ⟨rest, rfl, hrest⟩ := exists_of_reaches hfront hreaches
    obtain ⟨left, rfl⟩ := reaches_of_notMem hnone hrest
    cases hashes with
    | zero =>
      have hquote : '"' ∉ rest := by
        intro hmem
        obtain ⟨before, after, rfl⟩ := List.append_of_mem hmem
        exact hbody ⟨before, after ++ ['\n'] ++ left, by simp⟩
      have hcs : letters ++ 'r' :: (List.replicate 0 '#' ++ ['"']) ++ rest = letters ++ ['r'] ++ '"' :: rest := by simp
      rw [hcs] at hstring ⊢
      refine exists_error_of_open ?_ (.inl rfl) hstring ?_ (hopen (quotedBodyLength?_eq_none hquote)) line
      · rcases List.mem_pair.1 hletters with rfl | rfl <;> decide
      · rcases List.mem_pair.1 hletters with rfl | rfl <;> rfl
    | succ hashes =>
      -- The quote that ends the string stands behind the line feed.
      have hmarked : ['#', '"'] <:+: letters ++ 'r' :: (List.replicate (hashes + 1) '#' ++ ['"']) ++ rest := by
        refine ⟨letters ++ 'r' :: List.replicate hashes '#', rest, ?_⟩
        simp [List.replicate_succ']
      have hbehind : left ++ '"' :: List.replicate (hashes + 1) '#' <+: more := by
        simpa [List.append_assoc] using hinside
      exact absurd (hbehind.subset (by simp)) (hmark.resolve_left (not_not_intro hmarked))
  · obtain ⟨letters, hletters, inner, hinner, rfl⟩ := exists_letters hquoted
    have hfront : '\n' ∉ letters ++ ['"'] := by
      rw [List.mem_append, not_or]
      exact ⟨notMem_of_letters hletters, by decide⟩
    rw [List.append_cons letters] at hreaches
    obtain ⟨rest, rfl, hrest⟩ := exists_of_reaches hfront hreaches
    have hbody := length?_eq_none_of_reaches measures_quotedBody delimits_quotedBody hinner hrest
    rw [← List.append_cons] at hstring ⊢
    refine exists_error_of_open ?_ (.inl rfl) hstring ?_ (hopen hbody) line
    · rcases List.mem_pair.1 hletters with rfl | rfl <;> decide
    · rcases List.mem_pair.1 hletters with rfl | rfl <;> rfl

theorem exists_error_of_blockComment (htext : text ∈ blockComment.language) (hreaches : cs ++ ['\n'] <+: text)
    (line : Nat) : ∃ error, tokensFrom line cs = .error error := by
  have hopen := length?_eq_none_of_reaches measures_blockComment delimits_blockComment htext hreaches
  obtain ⟨tail, rfl, -⟩ := mem_blockComment_iff.1 htext
  have hmarker : '\n' ∉ ['/', '*'] := by decide
  obtain ⟨rest, rfl, -⟩ := exists_of_reaches hmarker hreaches
  have hfirst : first '/' ('*' :: rest) = .error .openComment := by
    have hnone : blockCommentLength? 0 ('/' :: '*' :: rest) = none := hopen
    simp only [first, List.isPrefixOf, beq_self_eq_true, Bool.true_and, if_true, hnone]
  exact ⟨_, tokensFrom_of_first_error line hfirst⟩

/-- No lexeme but one of blanks goes over the end of a line that is cut to its end. -/
theorem not_reaches {lexeme : Lexeme} {line : Nat} {tokens : List Token} (hcut : tokensFrom line cs = .ok tokens)
    (hmark : ¬['#', '"'] <:+: cs ∨ '"' ∉ more) (hblanks : lexeme ≠ .blanks) (htext : text ∈ lexeme.language)
    (hinside : text <+: cs ++ '\n' :: more) : ¬cs ++ ['\n'] <+: text := by
  intro hreaches
  have hmem : '\n' ∈ text := hreaches.subset (List.mem_append_right cs (List.mem_singleton_self _))
  have hno (h : ∃ error, tokensFrom line cs = .error error) : False := by
    obtain ⟨error, herror⟩ := h
    rw [hcut] at herror
    exact absurd herror (by simp)
  cases lexeme with
  | blanks => exact hblanks rfl
  | lineComment => exact lineFeed_notMem (by decide) htext hmem
  | blockComment => exact hno (exists_error_of_blockComment htext hreaches line)
  | token kind =>
    cases kind with
    | string => exact hno (exists_error_of_string htext hreaches hinside hmark line)
    | char => exact hno (exists_error_of_char htext hreaches line)
    | lifetime => exact lineFeed_notMem (by decide) htext hmem
    | ident => exact lineFeed_notMem (by decide) htext hmem
    | number => exact lineFeed_notMem (by decide) htext hmem
    | punct => exact lineFeed_notMem (by decide) htext hmem

/-- A lexeme of a text that is cut to its end is the same when a line feed and more text follow. -/
theorem Lexeme.Heads.append_line {lexeme : Lexeme} {after : List Char} {line : Nat} {tokens : List Token}
    (h : Heads lexeme text after) (hblanks : lexeme ≠ .blanks) (hcut : tokensFrom line (text ++ after) = .ok tokens)
    (hmark : ¬['#', '"'] <:+: text ++ after ∨ '"' ∉ more) : Heads lexeme text (after ++ '\n' :: more) := by
  have hwithin {found : Lexeme} (hfound : found ≠ .blanks) {other : List Char} (hother : other ∈ found.language)
      (hstarts : other <+: text ++ (after ++ '\n' :: more)) : other <+: text ++ after := by
    rw [← List.append_assoc] at hstarts
    exact (prefix_or_reaches hstarts).resolve_right (not_reaches hcut hmark hfound hother hstarts)
  constructor
  · exact h.nonempty
  · exact h.mem
  · exact fun other hother hstarts => h.longest other hother (hwithin hblanks hother hstarts)
  · intro earlier hearlier other hother hstarts
    by_cases hfound : earlier = .blanks
    · subst hfound
      -- The first of the blanks stands in front of the line feed already.
      obtain ⟨c, rest, rfl, hblank, -⟩ := mem_one_mul.1 hother
      obtain ⟨d, inner, rfl⟩ := List.exists_cons_of_ne_nil h.nonempty
      obtain ⟨rfl, -⟩ := List.cons_prefix_cons.1 hstarts
      refine h.earliest .blanks hearlier [c] ?_ ⟨inner ++ after, rfl⟩
      exact mem_one_mul.2 ⟨c, [], rfl, hblank, Language.nil_mem_kstar _⟩
    · exact h.earliest earlier hearlier other hother (hwithin hfound hother hstarts)
  · intro hcomment hstarts
    rw [← List.append_assoc] at hstarts
    rcases prefix_or_reaches hstarts with hmarker | hreaches
    · exact h.closed hcomment hmarker
    · have hmem : '\n' ∈ ['/', '*'] := hreaches.subset (List.mem_append_right _ (List.mem_singleton_self _))
      exact absurd hmem (by decide)

end Reaching

/-! ### Joined texts -/

theorem exists_of_map_eq_ok {ε α β : Type} {f : α → β} {result : Except ε α} {value : β}
    (h : result.map f = .ok value) : ∃ inner, result = .ok inner ∧ value = f inner := by
  cases result with
  | error error => exact absurd h (by simp [Except.map])
  | ok inner => exact ⟨inner, rfl, (Except.ok.inj h).symm⟩

/-- A text that is cut to its end is cut in the same way in front of a line feed, and what follows the line feed is cut
as if it stood alone. -/
theorem tokensFrom_joined {line : Nat} {cs more : List Char} {written : List Token}
    (hcut : tokensFrom line cs = .ok written) (hmark : ¬['#', '"'] <:+: cs ∨ '"' ∉ more) :
    tokensFrom line (cs ++ '\n' :: more) = (tokensFrom (line + cs.count '\n' + 1) more).map (written ++ ·) := by
  induction cs using source_induction generalizing line written with
  | nil =>
    rw [tokensFrom_nil] at hcut
    obtain rfl := Except.ok.inj hcut
    rw [List.nil_append, tokensFrom_lineFeed, List.count_nil, Nat.add_zero]
    cases tokensFrom (line + 1) more <;> rfl
  | heads lexeme text after hheads ih =>
    have hstep : tokensFrom line (text ++ (after ++ '\n' :: more)) =
        (tokensFrom (line + text.count '\n') (after ++ '\n' :: more)).map
          ((Piece.token? ⟨lexeme, text, line⟩).toList ++ ·) := by
      by_cases hblanks : lexeme = .blanks
      · subst hblanks
        rw [tokensFrom_blanks line (mem_run.1 hheads.mem).2]
        cases tokensFrom (line + text.count '\n') (after ++ '\n' :: more) <;> rfl
      · exact tokensFrom_of_heads line (hheads.append_line hblanks hcut hmark)
    rw [tokensFrom_of_heads line hheads] at hcut
    obtain ⟨later, hlater, rfl⟩ := exists_of_map_eq_ok hcut
    have hafter : ¬['#', '"'] <:+: after ∨ '"' ∉ more :=
      hmark.imp_left fun hno hlater => hno (hlater.trans (List.suffix_append text after).isInfix)
    rw [List.append_assoc, hstep, ih hlater hafter, List.count_append, ← Nat.add_assoc]
    cases tokensFrom (line + text.count '\n' + after.count '\n' + 1) more with
    | error error => rfl
    | ok tokens => simp only [Except.map, List.append_assoc]
  | stuck c rest flaw hstuck =>
    rw [tokensFrom_of_first_error _ hstuck] at hcut
    exact absurd hcut (by simp)

theorem tokensFrom_below (lines : Nat) (source : String) :
    tokensFrom (1 + lines) source.toList = below lines (tokens source) :=
  tokensFrom_add 1 lines source.toList

/-- What is cut into some tokens and then into those of a source further down is cut to its end if the source is, and
has the errors of the source. -/
theorem outcomes_of_eq_below {lines : Nat} {front : List Token} {joined later : Except SourceError (List Token)}
    (h : joined = (below lines later).map (front ++ ·)) :
    ((∃ written, joined = .ok written) ↔ ∃ written, later = .ok written) ∧
      (∀ written, later = .ok written → joined = .ok (front ++ written.map (Token.below lines))) ∧
      ∀ error, later = .error error → joined = .error (error.below lines) := by
  subst h
  cases later with
  | ok written => exact ⟨iff_of_true ⟨_, rfl⟩ ⟨written, rfl⟩, by rintro _ ⟨rfl⟩; rfl, by simp⟩
  | error error => exact ⟨iff_of_false (by simp [below, Except.map]) (by simp), by simp, by rintro _ ⟨rfl⟩; rfl⟩

/-- Two texts with a line feed between them, the first of which is cut to its end, are cut one after the other: into
the tokens of the first and then those of the second, moved down by the lines of the first; and an error of the second
is the error of both, moved down likewise. -/
theorem tokens_joined {first second : String} {written : List Token} (hcut : tokens first = .ok written)
    (hmark : ¬['#', '"'] <:+: first.toList ∨ '"' ∉ second.toList) :
    ((∃ joined, tokens (first ++ "\n" ++ second) = .ok joined) ↔ ∃ later, tokens second = .ok later) ∧
      (∀ later, tokens second = .ok later → tokens (first ++ "\n" ++ second) =
        .ok (written ++ later.map (Token.below (1 + first.toList.count '\n')))) ∧
      ∀ error, tokens second = .error error → tokens (first ++ "\n" ++ second) =
        .error (error.below (1 + first.toList.count '\n')) := by
  have hlists : (first ++ "\n" ++ second).toList = first.toList ++ '\n' :: second.toList := by
    rw [String.toList_append, String.toList_append, List.append_assoc]
    rfl
  apply outcomes_of_eq_below
  rw [tokens_eq, hlists, tokensFrom_joined hcut hmark, Nat.add_assoc, Nat.add_comm _ 1, tokensFrom_below]

/-- A letter that would make the string after it a raw one, and a comment without a line feed behind it. -/
theorem tokens_joined_letter :
    tokens "'x r" = .ok [⟨.lifetime, "'x", 1⟩, ⟨.ident, "r", 1⟩] ∧
      tokens "\"'\n\"// '" = .ok [⟨.string, "\"'\n\"", 1⟩] ∧
      tokens ("'x r" ++ "\n" ++ "\"'\n\"// '") =
        .ok [⟨.lifetime, "'x", 1⟩, ⟨.ident, "r", 1⟩, ⟨.string, "\"'\n\"", 2⟩] := by
  have hfirst : tokens "'x r" = .ok [⟨.lifetime, "'x", 1⟩, ⟨.ident, "r", 1⟩] := by decide +kernel
  have hsecond : tokens "\"'\n\"// '" = .ok [⟨.string, "\"'\n\"", 1⟩] := by decide +kernel
  have hmark : ¬['#', '"'] <:+: "'x r".toList := by decide
  exact ⟨hfirst, hsecond, (tokens_joined hfirst (.inl hmark)).2.1 _ hsecond⟩

-- A raw string that is not ended on its first line is a name, a hash and a string there.
example : tokens "r#\"a\"" = .ok [⟨.ident, "r", 1⟩, ⟨.punct, "#", 1⟩, ⟨.string, "\"a\"", 1⟩] ∧
    tokens "r#\"a\"\n\"#" = .ok [⟨.string, "r#\"a\"\n\"#", 1⟩] := by decide +kernel

end FfiBindings.Rust
