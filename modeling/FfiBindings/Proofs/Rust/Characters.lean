import FfiBindings.Proofs.Rust.Lexeme
import FfiBindings.Proofs.Rust.LineJoin
import FfiBindings.Proofs.Rust.Places
import Mathlib.Data.Bool.AllAny

/-!
The characters of tokens that are no literals. Names, lifetimes and numbers begin and end with word characters, but for
the apostrophe of a lifetime, and hold nothing beside them but hashes and points; punctuation is one character or one of
`longMarks` (`Token.IsClear.marks_of_head`). So what a token begins or ends with tells a separator, a slash or a plus
sign from everything else (`Token.IsClear.isPunct_of_last`), and an arrow across the ends of tokens is a token of its
own unless it is put together of a dash and an angle (`Token.IsClear.text_of_arrow_suffix`).
-/

set_option autoImplicit false
set_option relaxedAutoImplicit false

namespace FfiBindings.Rust

open Text Pattern
open scoped Computability

/-! ### The characters of tokens -/

/-- A text that begins and ends with word characters and holds no other characters than these, hashes and points. -/
structure IsWordText (text : List Char) : Prop where
  head : ∃ c, text.head? = some c ∧ isWord c = true
  inside : ∀ c ∈ text, isWord c = true ∨ c ∈ ['#', '.']
  last : ∃ c, text.getLast? = some c ∧ isWord c = true

section Characters

variable {kind : Token.Kind} {text : List Char} {c : Char}

theorem IsWordText.append {front : List Char} (hfront : ∃ c rest, front = c :: rest ∧ isWord c = true)
    (hinside : ∀ c ∈ front, isWord c = true ∨ c ∈ ['#', '.']) (h : IsWordText text) : IsWordText (front ++ text) where
  head := by
    obtain ⟨c, rest, rfl, hc⟩ := hfront
    exact ⟨c, rfl, hc⟩
  inside c hc := (List.mem_append.1 hc).elim (hinside c) (h.inside c)
  last := by
    obtain ⟨c, hlast, hc⟩ := h.last
    exact ⟨c, by rw [List.getLast?_append, hlast, Option.some_or], hc⟩

theorem isWordText_of_isWord (hne : text ≠ []) (h : ∀ c ∈ text, isWord c = true) : IsWordText text where
  head := by
    obtain ⟨c, rest, rfl⟩ := List.exists_cons_of_ne_nil hne
    exact ⟨c, rfl, h c List.mem_cons_self⟩
  inside c hc := .inl (h c hc)
  last := ⟨_, List.getLast?_eq_some_getLast hne, h _ (List.getLast_mem hne)⟩

theorem isWordText_of_mem_name (h : text ∈ Pattern.name) : IsWordText text := by
  obtain ⟨c, rest, rfl, -⟩ := Lexeme.head_of_mem_name h
  exact isWordText_of_isWord (List.cons_ne_nil c rest) (isWord_of_mem_name h)

theorem isWordText_of_mem_ident (h : text ∈ Token.Kind.pattern .ident) : IsWordText text := by
  rcases mem_optional_mul.1 h with hname | hraw
  · exact isWordText_of_mem_name hname
  · obtain ⟨rest, rfl, hrest⟩ := mem_exactly_mul.1 hraw
    refine (isWordText_of_mem_name hrest).append ⟨'r', ['#'], rfl, by decide⟩ ?_
    intro c hc
    rcases List.mem_pair.1 hc with rfl | rfl
    · exact .inl (by decide)
    · exact .inr (by decide)

theorem isWordText_of_mem_number (h : text ∈ Token.Kind.pattern .number) : IsWordText text := by
  have hdigits {c : Char} (hc : isDecimal c = true) {word : List Char} (hword : word ∈ (one isWord)∗) :
      ∀ d ∈ c :: word, isWord d = true :=
    List.forall_mem_cons.2 ⟨isWord_of_isDecimal hc, mem_many.1 hword⟩
  obtain ⟨c, rest, rfl, hc, hrest⟩ := mem_one_mul.1 h
  obtain ⟨word, hword, fraction, hfraction, rfl⟩ := Language.mem_mul.1 hrest
  rcases hfraction with rfl | hfraction
  · rw [List.append_nil]
    exact isWordText_of_isWord (List.cons_ne_nil c word) (hdigits hc hword)
  · obtain ⟨digits, rfl, hmore⟩ := mem_exactly_mul.1 hfraction
    obtain ⟨d, more, rfl, hd, hmore⟩ := mem_one_mul.1 hmore
    have hback := isWordText_of_isWord (List.cons_ne_nil d more) (hdigits hd hmore)
    have htext : c :: (word ++ (['.'] ++ d :: more)) = (c :: (word ++ ['.'])) ++ d :: more := by simp
    rw [htext]
    refine hback.append ⟨c, _, rfl, isWord_of_isDecimal hc⟩ ?_
    intro e he
    rw [← List.cons_append, List.mem_append, List.mem_singleton] at he
    rcases he with he | rfl
    · exact .inl (hdigits hc hword e he)
    · exact .inr (by decide)

/-- Characters that begin no lexeme of their own inside of a token: what comes after the first character of a token that
is no literal. -/
def followsInside (c : Char) : Bool :=
  isWord c || ['#', '.', ':', '>', '='].contains c

/-- What comes before the last character of a token that is no literal. -/
def precedesInside (c : Char) : Bool :=
  isWord c || ['\'', '#', '.', ':', '-', '='].contains c

theorem isBlank_of_followsInside (h : followsInside c = true) : isBlank c = false := by
  rw [followsInside, Bool.or_eq_true, List.contains_iff_mem] at h
  rcases h with hword | hmark
  · exact isBlank_of_isWord hword
  · have hall : ∀ d ∈ ['#', '.', ':', '>', '='], isBlank d = false :=
      List.all_iff_forall_prop.1 (by decide)
    exact hall c hmark

theorem IsWordText.followsInside (h : IsWordText text) : ∀ c ∈ text, followsInside c = true := by
  intro c hc
  rcases h.inside c hc with hword | hmark
  · rw [Rust.followsInside, hword, Bool.true_or]
  · rcases List.mem_pair.1 hmark with rfl | rfl <;> decide

theorem IsWordText.precedesInside (h : IsWordText text) : ∀ c ∈ text, precedesInside c = true := by
  intro c hc
  rcases h.inside c hc with hword | hmark
  · rw [Rust.precedesInside, hword, Bool.true_or]
  · rcases List.mem_pair.1 hmark with rfl | rfl <;> decide

/-- What the characters of a token of the kind are, which is no literal. -/
structure IsClearText (kind : Token.Kind) (text : List Char) : Prop where
  head : ∃ c, text.head? = some c ∧ isBlank c = false ∧ c ≠ '"' ∧ (isWord c || c == '\'') = kind.isWordLike
  follows : ∀ c ∈ text.tail, followsInside c = true
  precedes : ∀ c ∈ text.dropLast, precedesInside c = true
  last : ∃ c, text.getLast? = some c ∧ isBlank c = false ∧ isWord c = kind.isWordLike
  apostrophe : ∀ rest, text = '\'' :: rest → rest ∈ Pattern.name

theorem IsWordText.isClearText (h : IsWordText text) (hkind : kind.isWordLike = true) : IsClearText kind text where
  head := by
    obtain ⟨c, hhead, hc⟩ := h.head
    refine ⟨c, hhead, isBlank_of_isWord hc, ?_, by rw [hc, hkind, Bool.true_or]⟩
    rintro rfl
    exact absurd hc (by decide)
  follows c hc := h.followsInside c (List.mem_of_mem_tail hc)
  precedes c hc := h.precedesInside c (List.dropLast_subset text hc)
  last := by
    obtain ⟨c, hlast, hc⟩ := h.last
    exact ⟨c, hlast, isBlank_of_isWord hc, by rw [hc, hkind]⟩
  apostrophe := by
    rintro rest rfl
    obtain ⟨c, hhead, hc⟩ := h.head
    obtain rfl := Option.some.inj hhead
    exact absurd hc (by decide)

theorem isClearText_lifetime (h : text ∈ Token.Kind.pattern .lifetime) : IsClearText .lifetime text := by
  obtain ⟨name, rfl, hname⟩ := mem_exactly_mul.1 h
  have hword := isWordText_of_mem_name hname
  obtain ⟨c, rest, rfl, -⟩ := Lexeme.head_of_mem_name hname
  refine ⟨⟨'\'', rfl, by decide, by decide, by decide⟩, hword.followsInside, ?_, ?_, ?_⟩
  · intro d hd
    rcases List.mem_cons.1 hd with rfl | hd
    · decide
    · exact hword.precedesInside d (List.dropLast_subset _ hd)
  · obtain ⟨d, hlast, hd⟩ := hword.last
    exact ⟨d, hlast, isBlank_of_isWord hd, hd⟩
  · intro other hother
    obtain ⟨-, rfl⟩ := List.cons.inj hother
    exact hname

theorem isClearText_punct (h : text ∈ Token.Kind.pattern .punct) : IsClearText .punct text := by
  rcases h with (((((rfl | rfl) | rfl) | rfl) | rfl) | rfl) | ⟨c, hc, rfl⟩
  iterate 6
    exact ⟨⟨_, rfl, by decide, by decide, by decide⟩, List.all_eq_true.1 (by decide), List.all_eq_true.1 (by decide),
      ⟨_, rfl, by decide, by decide⟩,
      fun rest hrest => absurd (List.cons.inj hrest).1 (by decide)⟩
  simp only [Bool.and_eq_true, Bool.not_eq_true', bne_iff_ne] at hc
  obtain ⟨⟨⟨hblank, hword⟩, hquote⟩, hapostrophe⟩ := hc
  refine ⟨⟨c, rfl, hblank, hquote, ?_⟩, by simp, by simp, ⟨c, rfl, hblank, hword⟩, ?_⟩
  · rw [hword, beq_eq_false_iff_ne.2 hapostrophe]
    rfl
  · intro rest hrest
    exact absurd (List.cons.inj hrest).1 hapostrophe

/-- A token as it can be written, and no literal. -/
structure Token.IsClear (token : Token) : Prop where
  written : token.text.toList ∈ token.kind.pattern
  noLiteral : token.isLiteral = false

theorem Token.IsClear.isClearText {token : Token} (h : token.IsClear) : IsClearText token.kind token.text.toList := by
  obtain ⟨hwritten, hliteral⟩ := h
  cases hkind : token.kind with
  | string => simp [isLiteral, hkind] at hliteral
  | char => simp [isLiteral, hkind] at hliteral
  | lifetime => exact isClearText_lifetime (hkind ▸ hwritten)
  | ident => exact (isWordText_of_mem_ident (hkind ▸ hwritten)).isClearText rfl
  | number => exact (isWordText_of_mem_number (hkind ▸ hwritten)).isClearText rfl
  | punct => exact isClearText_punct (hkind ▸ hwritten)

end Characters

/-! ### Marks -/

section Marks

variable {kind : Token.Kind} {text rest : List Char} {c : Char} {token : Token}

/-- Punctuation of more than one character. -/
def longMarks : List (List Char) :=
  [[':', ':'], ['-', '>'], ['=', '>'], ['.', '.', '='], ['.', '.', '.'], ['.', '.']]

theorem mem_punct_cases (h : text ∈ Token.Kind.pattern .punct) : text ∈ longMarks ∨ ∃ c, text = [c] := by
  rcases h with (((((rfl | rfl) | rfl) | rfl) | rfl) | rfl) | ⟨c, -, rfl⟩
  iterate 6 exact .inl (by decide)
  exact .inr ⟨c, rfl⟩

theorem Token.IsClear.kind_eq_punct (h : token.IsClear) (hkind : token.kind.isWordLike = false) :
    token.kind = .punct := by
  have hliteral := h.noLiteral
  cases hwritten : token.kind <;> simp_all [Token.isLiteral, Token.Kind.isWordLike]

theorem Token.IsClear.marks_of_head (h : token.IsClear) (hhead : token.text.toList.head? = some c)
    (hword : isWord c = false) (hapostrophe : c ≠ '\'') :
    token.kind = .punct ∧ (token.text.toList ∈ longMarks ∨ token.text.toList = [c]) := by
  obtain ⟨d, hd, -, -, hkind⟩ := h.isClearText.head
  obtain rfl := Option.some.inj (hhead.symm.trans hd)
  rw [hword, beq_eq_false_iff_ne.2 hapostrophe, Bool.or_false] at hkind
  have hpunct := h.kind_eq_punct hkind.symm
  refine ⟨hpunct, (mem_punct_cases (hpunct ▸ h.written)).imp_right ?_⟩
  rintro ⟨e, he⟩
  rw [he] at hhead
  rw [he, Option.some.inj hhead]

theorem Token.IsClear.marks_of_last (h : token.IsClear) (hlast : token.text.toList.getLast? = some c)
    (hword : isWord c = false) :
    token.kind = .punct ∧ (token.text.toList ∈ longMarks ∨ token.text.toList = [c]) := by
  obtain ⟨d, hd, -, hkind⟩ := h.isClearText.last
  obtain rfl := Option.some.inj (hlast.symm.trans hd)
  have hpunct := h.kind_eq_punct (hkind.symm.trans hword)
  refine ⟨hpunct, (mem_punct_cases (hpunct ▸ h.written)).imp_right ?_⟩
  rintro ⟨e, he⟩
  rw [he, List.getLast?_singleton] at hlast
  rw [he, Option.some.inj hlast]

theorem Token.IsClear.isPunct_iff {token : Token} {text : String} (h : token.IsClear)
    (hmark : (text.toList.getLast?.any fun c => !isWord c) = true) :
    token.isPunct text = true ↔ token.text = text := by
  rw [Token.isPunct, Bool.and_eq_true, beq_iff_eq, beq_iff_eq]
  refine ⟨And.right, fun htext => ⟨?_, htext⟩⟩
  obtain ⟨c, hlast, hword⟩ := (Option.any_eq_true _ _).1 hmark
  exact (h.marks_of_last (htext ▸ hlast) (by simpa using hword)).1

theorem Token.IsClear.isPunct_of_last {token : Token} {c : Char} (h : token.IsClear)
    (hc : c ∈ [',', ';', '+', '-']) (hlast : token.text.toList.getLast? = some c) :
    token.isPunct (String.singleton c) = true := by
  have hmarks : ∀ c ∈ [',', ';', '+', '-'], ∀ text ∈ longMarks, text.getLast? ≠ some c :=
    List.all_iff_forall_prop.1 (by decide)
  have hword : ∀ c ∈ [',', ';', '+', '-'], isWord c = false :=
    List.all_iff_forall_prop.1 (by decide)
  obtain ⟨-, hlong | hshort⟩ := h.marks_of_last hlast (hword c hc)
  · exact absurd hlast (hmarks c hc _ hlong)
  · rw [h.isPunct_iff (by simp [hword c hc]), ← String.toList_inj, hshort, String.toList_singleton]

theorem Token.IsClear.isPunct_of_head {token : Token} {c : Char} (h : token.IsClear)
    (hc : c ∈ ['/', '*', '+', '>']) (hhead : token.text.toList.head? = some c) :
    token.isPunct (String.singleton c) = true := by
  have hmarks : ∀ c ∈ ['/', '*', '+', '>'], ∀ text ∈ longMarks, text.head? ≠ some c :=
    List.all_iff_forall_prop.1 (by decide)
  have hword : ∀ c ∈ ['/', '*', '+', '>'], isWord c = false ∧ c ≠ '\'' :=
    List.all_iff_forall_prop.1 (by decide)
  obtain ⟨-, hlong | hshort⟩ := h.marks_of_head hhead (hword c hc).1 (hword c hc).2
  · exact absurd hhead (hmarks c hc _ hlong)
  · rw [h.isPunct_iff (by simp [(hword c hc).1]), ← String.toList_inj, hshort, String.toList_singleton]

/-- An arrow ends in a token whose text is the arrow, unless it begins in front of the token. -/
theorem Token.IsClear.text_of_arrow_suffix (h : token.IsClear) {front : List Char}
    (hcut : token.text = ">" → ¬['-'] <:+ front) (harrow : ['-', '>'] <:+ front ++ token.text.toList) :
    token.text = "->" := by
  have hmarks : ∀ text ∈ longMarks, text.getLast? = some '>' → text = ['-', '>'] ∨ text = ['=', '>'] := by decide
  obtain ⟨c, hlast, -⟩ := h.isClearText.last
  obtain ⟨before, hbefore⟩ := harrow
  have hc : '>' = c := by
    have hends := congrArg List.getLast? hbefore
    rw [List.getLast?_append, List.getLast?_append, hlast] at hends
    exact Option.some.inj hends
  subst hc
  obtain ⟨-, hlong | hshort⟩ := h.marks_of_last hlast (by decide)
  · rcases hmarks _ hlong hlast with htext | htext
    · exact String.toList_inj.1 htext
    · rw [htext] at hbefore
      exact absurd (List.append_inj' hbefore rfl).2 (by decide)
  · rw [hshort, List.append_cons] at hbefore
    exact absurd ⟨before, (List.append_inj' hbefore rfl).1⟩ (hcut (String.toList_inj.1 hshort))

/-- An arrow begins with a token whose text is the arrow, unless it ends behind the token. -/
theorem Token.IsClear.text_of_arrow_prefix (h : token.IsClear) {back : List Char}
    (hcut : token.text = "-" → ¬['>'] <+: back) (harrow : ['-', '>'] <+: token.text.toList ++ back) :
    token.text = "->" := by
  have hmarks : ∀ text ∈ longMarks, text.head? = some '-' → text = ['-', '>'] := by decide
  obtain ⟨c, hhead, -⟩ := h.isClearText.head
  obtain ⟨after, hafter⟩ := harrow
  have hc : '-' = c := by
    have hbegins := congrArg List.head? hafter
    rw [List.head?_append, List.head?_append, hhead] at hbegins
    exact Option.some.inj hbegins
  subst hc
  obtain ⟨-, hlong | hshort⟩ := h.marks_of_head hhead (by decide) (by decide)
  · exact String.toList_inj.1 (hmarks _ hlong hhead)
  · rw [hshort] at hafter
    exact absurd ⟨after, (List.cons.inj hafter).2⟩ (hcut (String.toList_inj.1 hshort))

end Marks

end FfiBindings.Rust
