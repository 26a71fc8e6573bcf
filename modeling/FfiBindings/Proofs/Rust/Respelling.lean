import FfiBindings.Proofs.Rust.Joint

/-!
Spelling a spelling. A text whose places are all joints is cut into tokens that need not be those it was spelled from:
an `r`, a hash and a name are one raw name, and a number, a point and a number one fraction. Yet these tokens are
spelled with just the spaces that the text has, for where a space belongs can be read off the characters around the
place, and a word that goes on is not cut, the lexer taking the longest (`exists_tokensFrom_of_joined`). So the text is
its own canonical spelling (`canonicalType_of_joined`), and a canonical spelling is spelled as it stands
(`canonicalType_canonicalType`).
-/

set_option autoImplicit false
set_option relaxedAutoImplicit false

namespace FfiBindings.Rust

open Text Pattern Lexeme
open scoped Computability

section Joined

variable {lexeme : Lexeme} {kind : Token.Kind} {front text after : List Char} {c : Char}

/-! ### The lexemes of a text whose places are joints -/

theorem Joined.here (h : Joined front text) : IsJoint front text := by
  simpa using h [] text rfl

theorem Joined.behind (h : Joined front (text ++ after)) : Joined (front ++ text) after := by
  intro before rest heq
  rw [List.append_assoc]
  exact h (text ++ before) rest (by rw [heq, List.append_assoc])

/-- A word can go on with any word character. -/
theorem concat_mem_pattern (hkind : kind = .ident ∨ kind = .lifetime ∨ kind = .number) (h : text ∈ kind.pattern)
    (hword : isWord c = true) : text ++ [c] ∈ kind.pattern := by
  have hmore {word : List Char} (h : word ∈ (one isWord)∗) : word ++ [c] ∈ (one isWord)∗ := by
    rw [mem_many] at h ⊢
    intro d hd
    rcases List.mem_append.1 hd with hd | hd
    · exact h d hd
    · exact List.mem_singleton.1 hd ▸ hword
  have hname {name : List Char} (h : name ∈ Pattern.name) : name ++ [c] ∈ Pattern.name := by
    obtain ⟨d, word, rfl, hstart, hinner⟩ := mem_one_mul.1 h
    exact mem_one_mul.2 ⟨d, word ++ [c], rfl, hstart, hmore hinner⟩
  rcases hkind with rfl | rfl | rfl
  · rcases mem_optional_mul.1 h with hplain | hraw
    · exact mem_optional_mul.2 (.inl (hname hplain))
    · obtain ⟨name, rfl, hrest⟩ := mem_exactly_mul.1 hraw
      exact mem_optional_mul.2 (.inr (mem_exactly_mul.2 ⟨name ++ [c], by simp, hname hrest⟩))
  · obtain ⟨name, rfl, hrest⟩ := mem_exactly_mul.1 h
    exact mem_exactly_mul.2 ⟨name ++ [c], by simp, hname hrest⟩
  · obtain ⟨d, rest, rfl, hd, hrest⟩ := mem_one_mul.1 h
    obtain ⟨word, hword', fraction, hfraction, rfl⟩ := Language.mem_mul.1 hrest
    refine mem_one_mul.2 ⟨d, word ++ fraction ++ [c], by simp, hd, ?_⟩
    rcases hfraction with rfl | hfraction
    · exact Language.mem_mul.2 ⟨word ++ [c], hmore hword', [], .inl rfl, by simp⟩
    · obtain ⟨digits, rfl, hdigits⟩ := mem_exactly_mul.1 hfraction
      obtain ⟨e, more, rfl, he, hinner⟩ := mem_one_mul.1 hdigits
      refine Language.mem_mul.2 ⟨word, hword', ['.'] ++ e :: (more ++ [c]), .inr ?_, by simp⟩
      exact mem_exactly_mul.2 ⟨_, rfl, mem_one_mul.2 ⟨e, more ++ [c], rfl, he, hmore hinner⟩⟩

theorem quote_mem_of_mem_string (h : text ∈ Token.Kind.pattern .string) : '"' ∈ text := by
  rcases h with hraw | hplain
  · have hquote {text : List Char} (h : text ∈ exactly ['r'] * rawBody) : '"' ∈ text := by
      obtain ⟨rest, rfl, hashes, body, rfl, -⟩ := mem_exactly_mul.1 h
      simp
    rcases mem_optional_mul.1 hraw with hraw | hraw
    · exact hquote hraw
    · obtain ⟨rest, rfl, hrest⟩ := mem_exactly_mul.1 hraw
      exact List.mem_append_right _ (hquote hrest)
  · rcases mem_optional_mul.1 hplain with hplain | hplain
    · obtain ⟨rest, rfl, -⟩ := mem_exactly_mul.1 hplain
      exact List.mem_cons_self
    · obtain ⟨rest, rfl, hrest⟩ := mem_exactly_mul.1 hplain
      obtain ⟨body, rfl, -⟩ := mem_exactly_mul.1 hrest
      simp

/-- What an apostrophe and one behind it enclose is a character or begins with a backslash. -/
theorem exists_of_mem_char (h : text ∈ Token.Kind.pattern .char) :
    ∃ before body, text = before ++ '\'' :: (body ++ ['\'']) ∧ ((∃ c, body = [c]) ∨ ∃ rest, body = '\\' :: rest) := by
  have hbody {text : List Char} (h : text ∈ exactly ['\''] * (charPart * exactly ['\''])) :
      ∃ body, text = '\'' :: (body ++ ['\'']) ∧ ((∃ c, body = [c]) ∨ ∃ rest, body = '\\' :: rest) := by
    obtain ⟨rest, rfl, hrest⟩ := mem_exactly_mul.1 h
    obtain ⟨body, hpart, closing, rfl, rfl⟩ := Language.mem_mul.1 hrest
    refine ⟨body, rfl, ?_⟩
    rcases hpart with ((hunicode | hhex) | hescape) | ⟨c, -, rfl⟩
    · obtain ⟨digits, hdigits, brace, -, rfl⟩ := Language.mem_mul.1 hunicode
      obtain ⟨inner, rfl, -⟩ := mem_exactly_mul.1 hdigits
      exact .inr ⟨_, rfl⟩
    · obtain ⟨first, hfirst, second, -, rfl⟩ := Language.mem_mul.1 hhex
      obtain ⟨inner, rfl, -⟩ := mem_exactly_mul.1 hfirst
      exact .inr ⟨_, rfl⟩
    · obtain ⟨inner, rfl, -⟩ := mem_exactly_mul.1 hescape
      exact .inr ⟨_, rfl⟩
    · exact .inl ⟨c, rfl⟩
  rcases mem_optional_mul.1 h with hplain | hbyte
  · obtain ⟨body, rfl, hcases⟩ := hbody hplain
    exact ⟨[], body, rfl, hcases⟩
  · obtain ⟨rest, rfl, hrest⟩ := mem_exactly_mul.1 hbyte
    obtain ⟨body, rfl, hcases⟩ := hbody hrest
    exact ⟨['b'], body, rfl, hcases⟩

theorem Joined.not_mem_string (h : Joined front (text ++ after)) : text ∉ Token.Kind.pattern .string := by
  intro hstring
  obtain ⟨before, rest, rfl⟩ := List.append_of_mem (quote_mem_of_mem_string hstring)
  rw [List.append_assoc] at h
  exact h.behind.here.noQuote ⟨rest ++ after, rfl⟩

theorem Joined.not_mem_char (h : Joined front (text ++ after)) : text ∉ Token.Kind.pattern .char := by
  intro hchar
  obtain ⟨before, body, rfl, hbody⟩ := exists_of_mem_char hchar
  rw [List.append_assoc] at h
  obtain ⟨c, more, hmore, hstart⟩ := h.behind.here.apostrophe _ rfl
  rcases hbody with ⟨d, rfl⟩ | ⟨rest, rfl⟩
  · obtain ⟨rfl, -⟩ := List.cons.inj hmore
    -- behind the character the second apostrophe stands at a word
    have hclosing : Joined (front ++ before ++ ['\'', d]) ('\'' :: after) := Joined.behind (by simpa using h.behind)
    have hword : isWord d = true := (Bool.and_eq_true _ _ |>.mp hstart).1
    obtain ⟨-, head, -, hhead, -, hapostrophe⟩ := hclosing.here.joint ⟨d, '\'', by simp, rfl, isBlank_of_isWord hword,
      by decide, .inl ⟨hword, .inr rfl⟩⟩
    obtain rfl := Option.some.inj hhead
    exact absurd hapostrophe (by decide)
  · obtain ⟨rfl, -⟩ := List.cons.inj hmore
    exact absurd hstart (by decide)

theorem Joined.isClear (h : Joined front (text ++ after)) (hheads : Heads (.token kind) text after) (line : Nat) :
    Token.IsClear ⟨kind, .ofList text, line⟩ where
  written := by
    rw [String.toList_ofList]
    exact hheads.mem
  noLiteral := by
    have hmem : text ∈ kind.pattern := hheads.mem
    cases kind with
    | string => exact absurd hmem h.not_mem_string
    | char => exact absurd hmem h.not_mem_char
    | _ => rfl

/-- Nothing but a space, a token or the end stands at a joint. -/
theorem Joined.heads_cases (h : Joined front (text ++ after)) (hheads : Heads lexeme text after) :
    lexeme = .blanks ∧ text = [' '] ∧ Separates front after ∨ ∃ kind, lexeme = .token kind := by
  have hmem := hheads.mem
  cases lexeme with
  | blanks =>
    left
    obtain ⟨c, rest, rfl, hc, hrest⟩ := mem_one_mul.1 hmem
    obtain ⟨rfl, hseparates⟩ := h.here.gap c (rest ++ after) rfl hc
    cases rest with
    | nil => exact ⟨rfl, rfl, hseparates⟩
    | cons d rest =>
      obtain ⟨last, head, -, hhead, -, hblank, -⟩ := hseparates
      obtain rfl := Option.some.inj hhead
      exact absurd (mem_many.1 hrest d List.mem_cons_self) (by simp [hblank])
  | lineComment =>
    obtain ⟨rest, rfl, -⟩ := mem_exactly_mul.1 hmem
    exact absurd ⟨rest ++ after, by simp⟩ h.here.noComment.1
  | blockComment =>
    obtain ⟨⟨rest, rfl⟩, -⟩ := hmem
    exact absurd ⟨rest ++ after, by simp⟩ h.here.noComment.2
  | token kind => exact .inr ⟨kind, rfl⟩

theorem Joined.not_stuck {rest : List Char} {flaw : Flaw} (h : Joined front (c :: rest)) :
    first c rest ≠ .error flaw := by
  intro herror
  obtain ⟨lexeme, text, after, -, -, hok⟩ | ⟨stuck, hstuck, -⟩ := first_cases c rest
  · rw [herror] at hok
    exact absurd hok (by simp)
  · cases stuck with
    | openComment => exact h.here.noComment.2 hstuck.1
    | openLiteral =>
      obtain ⟨⟨more, hquote | hapostrophe⟩, hnone⟩ := hstuck
      · exact h.here.noQuote ⟨more, hquote.symm⟩
      · obtain ⟨d, inner, rfl, hstart⟩ := h.here.apostrophe more hapostrophe
        refine hnone (.token .lifetime) ['\'', d] ?_ ⟨inner, hapostrophe.symm⟩
        exact mem_exactly_mul.2 ⟨[d], rfl, mem_one_mul.2 ⟨d, [], rfl, hstart, mem_many.2 (by simp)⟩⟩
    | _ => exact hstuck

/-! ### The tokens of such a text -/

/-- A text in front of which a space may be is spelled from the tokens, and an arrow that begins it is among them. -/
structure Respells (tokens : List Token) (cs : List Char) : Prop where
  clear : ∀ token ∈ tokens, token.IsClear
  spelled : (spell tokens).toList = cs.dropWhile isBlank
  arrow : ∀ token rest, tokens = token :: rest → ['-', '>'] <+: cs.dropWhile isBlank → token.text = "->"

theorem Joined.dropWhile_cases (h : Joined front after) : after.dropWhile isBlank = after ∨
    after = ' ' :: after.dropWhile isBlank ∧ Separates front (after.dropWhile isBlank) := by
  cases after with
  | nil => exact .inl rfl
  | cons c rest =>
    by_cases hc : isBlank c = true
    · obtain ⟨rfl, hseparates⟩ := h.here.gap c rest rfl hc
      have hrest : (' ' :: rest).dropWhile isBlank = rest := by
        obtain ⟨last, head, -, hhead, -, hblank, -⟩ := hseparates
        rw [List.dropWhile_cons_of_pos hc, dropWhile_eq_self_iff]
        intro d hd
        rwa [Option.some.inj (hd.symm.trans hhead)]
      rw [hrest]
      exact .inr ⟨rfl, hseparates⟩
    · exact .inl (List.dropWhile_cons_of_neg hc)

/-- The lexer takes the longer mark. -/
theorem Joined.no_arrow (h : Joined front (text ++ after)) (hheads : Heads (.token kind) text after)
    (htext : text = ['-']) : ¬['>'] <+: after := by
  subst htext
  have hhead : (String.ofList ['-']).toList.head? = some '-' := by rw [String.toList_ofList, List.head?_cons]
  obtain rfl : kind = .punct := ((h.isClear hheads 0).marks_of_head hhead (by decide) (by decide)).1
  rintro ⟨rest, rfl⟩
  have hlonger := hheads.longest ['-', '>'] (.inl (.inl (.inl (.inl (.inl (.inr rfl)))))) ⟨rest, rfl⟩
  exact absurd hlonger (by simp)

/-- Where one word stands on both sides of the end of a token, the lexer would have taken more. -/
theorem Joined.not_separates (h : Joined front (text ++ after)) (hheads : Heads (.token kind) text after) :
    ¬Separates (front ++ text) after := by
  intro hseparates
  obtain ⟨last, head, hlast, hhead, hlastWord, hheadWord⟩ := h.behind.here.joint hseparates
  obtain ⟨rest, rfl⟩ := List.head?_eq_some_iff.1 hhead
  have hclear := h.isClear hheads 0
  have hkind : kind = .ident ∨ kind = .lifetime ∨ kind = .number := by
    obtain ⟨c, hc, -, hword⟩ := hclear.isClearText.last
    rw [String.toList_ofList] at hc
    rw [List.getLast?_append, hc, Option.some_or, Option.some.injEq] at hlast
    rw [hlast, hlastWord] at hword
    cases kind with
    | ident => exact .inl rfl
    | lifetime => exact .inr (.inl rfl)
    | number => exact .inr (.inr rfl)
    | string => exact absurd hclear.noLiteral (by simp [Token.isLiteral])
    | char => exact absurd hword (by simp [Token.Kind.isWordLike])
    | punct => exact absurd hword (by simp [Token.Kind.isWordLike])
  have hlonger := hheads.longest (text ++ [head]) (concat_mem_pattern hkind hheads.mem hheadWord) ⟨rest, by simp⟩
  rw [List.length_append, List.length_singleton] at hlonger
  omega

theorem toList_of_ofList {spelling : String} (h : String.ofList text = spelling) : text = spelling.toList := by
  rw [← h, String.toList_ofList]

theorem toList_spellAfter (previous next : Token) (rest : List Token) : (spellAfter previous (next :: rest)).toList =
    (if isSpaced previous next then [' '] else []) ++ (spell (next :: rest)).toList := by
  rw [spellAfter, spell, String.toList_append, String.toList_append, String.toList_append, List.append_assoc]
  split <;> rfl

/-- One token more in front. -/
theorem Respells.cons {tokens : List Token} (h : Respells tokens after) (hjoined : Joined front (text ++ after))
    (hheads : Heads (.token kind) text after) (hcut : ['-'] <:+ front → ¬['>'] <+: text ++ after) (line : Nat) :
    Respells (⟨kind, .ofList text, line⟩ :: tokens) (text ++ after) := by
  have hclear := hjoined.isClear hheads line
  obtain ⟨c, hc, hblank, -⟩ := hclear.isClearText.head
  rw [String.toList_ofList] at hc
  have hwhole : (text ++ after).dropWhile isBlank = text ++ after := by
    rw [dropWhile_eq_self_iff]
    intro d hd
    rw [List.head?_append, hc, Option.some_or, Option.some.injEq] at hd
    rwa [← hd]
  refine ⟨List.forall_mem_cons.2 ⟨hclear, h.clear⟩, ?_, ?_⟩
  · rw [hwhole, spell, String.toList_append, String.toList_ofList, List.append_cancel_left_eq]
    cases tokens with
    | nil =>
      rcases hjoined.behind.dropWhile_cases with hafter | ⟨hafter, hseparates⟩
      · exact h.spelled.trans hafter
      · obtain ⟨last, head, -, hhead, -⟩ := hseparates
        rw [← h.spelled] at hhead
        exact absurd hhead (by simp [spell])
    | cons next rest =>
      have hnext := h.clear next List.mem_cons_self
      have hspelled : next.text.toList ++ (spellAfter next rest).toList = after.dropWhile isBlank := by
        rw [← h.spelled, spell, String.toList_append]
      have hspaced := isSpaced_iff_separates front (spellAfter next rest).toList hclear hnext
        (hclear.text_of_arrow_suffix ?_) ?_
      · rw [hspelled, String.toList_ofList] at hspaced
        rw [toList_spellAfter, h.spelled]
        rcases hjoined.behind.dropWhile_cases with hafter | ⟨hafter, hseparates⟩
        · rw [hafter] at hspaced ⊢
          rw [if_neg fun hspace => hjoined.not_separates hheads (hspaced.1 hspace)]
          rfl
        · rw [if_pos (hspaced.2 hseparates), List.singleton_append, ← hafter]
      · intro hangle hdash
        obtain rfl : text = ['>'] := toList_of_ofList hangle
        exact hcut hdash ⟨after, rfl⟩
      · intro harrow
        rw [hspelled] at harrow
        exact h.arrow next rest rfl harrow
  · rintro token rest heq harrow
    obtain ⟨rfl, rfl⟩ := List.cons.inj heq
    rw [hwhole, ← String.toList_ofList (l := text)] at harrow
    exact hclear.text_of_arrow_prefix (fun hdash => hjoined.no_arrow hheads (toList_of_ofList hdash)) harrow


/-- A text whose places are joints is cut into tokens that are spelled as the text is, up to a space in front. -/
theorem exists_tokensFrom_of_joined {cs : List Char} (h : Joined front cs) (hcut : ['-'] <:+ front → ¬['>'] <+: cs)
    (line : Nat) : ∃ tokens, tokensFrom line cs = .ok tokens ∧ Respells tokens cs := by
  induction cs using source_induction generalizing front line with
  | nil => exact ⟨[], tokensFrom_nil line, by simp, rfl, by simp⟩
  | heads lexeme text after hheads ih =>
    rcases h.heads_cases hheads with ⟨rfl, rfl, -⟩ | ⟨kind, rfl⟩
    · have hspace : ['-'] <:+ front ++ [' '] → ¬['>'] <+: after := by
        rintro ⟨more, hmore⟩
        exact absurd (List.append_inj' hmore rfl).2 (by decide)
      obtain ⟨tokens, htokens, hrespells⟩ := ih h.behind hspace (line + [' '].count '\n')
      refine ⟨tokens, by rw [tokensFrom_of_heads line hheads, htokens]; rfl, ?_⟩
      have hdrop : ([' '] ++ after).dropWhile isBlank = after.dropWhile isBlank :=
        List.dropWhile_cons_of_pos (by decide)
      exact ⟨hrespells.clear, by rw [hdrop, hrespells.spelled], by rw [hdrop]; exact hrespells.arrow⟩
    · have hdash : ['-'] <:+ front ++ text → ¬['>'] <+: after := by
        rintro ⟨more, hmore⟩
        refine h.no_arrow hheads ?_
        have hclear := h.isClear hheads line
        obtain ⟨c, hc, -⟩ := hclear.isClearText.last
        have hlast : c = '-' := by
          have hends := congrArg List.getLast? hmore
          rw [String.toList_ofList] at hc
          rw [List.getLast?_append, List.getLast?_append, hc] at hends
          exact (Option.some.inj hends).symm
        subst hlast
        have hpunct := hclear.isPunct_of_last (by decide) hc
        exact toList_of_ofList ((hclear.isPunct_iff (by decide)).1 hpunct)
      obtain ⟨tokens, htokens, hrespells⟩ := ih h.behind hdash (line + text.count '\n')
      refine ⟨_ :: tokens, ?_, hrespells.cons h hheads hcut line⟩
      rw [tokensFrom_of_heads line hheads, htokens]
      rfl
  | stuck c rest flaw herror => exact absurd herror h.not_stuck

end Joined

/-- A text whose places are joints is its own canonical spelling. -/
theorem canonicalType_of_joined {text : String} (h : Joined [] text.toList) :
    ∃ tokens, Rust.tokens text = .ok tokens ∧ canonicalType text = .ok text := by
  have hfront : ['-'] <:+ [] → ¬['>'] <+: text.toList := fun hdash => absurd (List.suffix_nil.1 hdash) (by simp)
  obtain ⟨tokens, htokens, hrespells⟩ := exists_tokensFrom_of_joined h hfront 1
  have hbegins : text.toList.dropWhile isBlank = text.toList := by
    rcases h.dropWhile_cases with hwhole | ⟨-, hseparates⟩
    · exact hwhole
    · exact absurd hseparates (not_separates_nil _)
  refine ⟨tokens, htokens, ?_⟩
  rw [canonicalType, tokens_eq, htokens]
  exact congrArg Except.ok (String.toList_inj.1 (hrespells.spelled.trans hbegins))

/-- A canonical spelling of tokens that stay apart is cut into tokens again, and spelled as it stands. -/
theorem canonicalType_canonicalType {text : String} {tokens : List Token} (h : Rust.tokens text = .ok tokens)
    (hliteral : ∀ token ∈ tokens, token.isLiteral = false)
    (hclash : tokens.IsChain fun token next => token.clashes next = false) :
    ∃ spelling again, canonicalType text = .ok spelling ∧ Rust.tokens spelling = .ok again ∧
      canonicalType spelling = .ok spelling := by
  have hjoined : Joined [] (spell tokens).toList :=
    StayApart.joined_spell ⟨fun token hmem => ⟨mem_pattern_of_mem_tokens h token hmem, hliteral token hmem⟩, hclash⟩
  obtain ⟨again, hagain, hcanonical⟩ := canonicalType_of_joined hjoined
  refine ⟨spell tokens, again, ?_, hagain, hcanonical⟩
  rw [canonicalType, h]
  rfl

end FfiBindings.Rust
