import FfiBindings.Proofs.Rust.Characters
import Mathlib.Data.List.Chain

/-!
The places of a spelling. Whether a space is written between two tokens shows in the characters around the place
(`isSpaced_iff_separates`), and inside of a token no space ever belongs that is not between two word characters
(`Token.IsClear.isJoint_inside`). So of a spelling each place can be told without the tokens it was made of
(`StayApart.joined_spell`): there is a space just where one belongs or a word goes on. Literals and pairs of tokens that
are one token, or begin a comment, without anything between them are left out.
-/

set_option autoImplicit false
set_option relaxedAutoImplicit false

namespace FfiBindings.Rust

open Text Pattern

/-! ### Where a space belongs -/

/-- What stands on both sides of a place asks for a space there. -/
def Separates (front back : List Char) : Prop :=
  ∃ last head, front.getLast? = some last ∧ back.head? = some head ∧ isBlank last = false ∧ isBlank head = false ∧
    (isWord last = true ∧ (isWord head = true ∨ head = '\'') ∨ last ∈ [',', ';', '+'] ∨ head = '+' ∨
      ['-', '>'] <:+ front ∨ ['-', '>'] <+: back)

section Separates

variable {previous next : Token} {front back : List Char}

theorem separates_of_isSpaced (front back : List Char) (hprevious : previous.IsClear) (hnext : next.IsClear)
    (hspaced : isSpaced previous next = true) :
    Separates (front ++ previous.text.toList) (next.text.toList ++ back) := by
  obtain ⟨last, hlast, hlastBlank, hlastWord⟩ := hprevious.isClearText.last
  obtain ⟨head, hhead, hheadBlank, -, hheadWord⟩ := hnext.isClearText.head
  refine ⟨last, head, ?_, ?_, hlastBlank, hheadBlank, ?_⟩
  · rw [List.getLast?_append, hlast, Option.some_or]
  · rw [List.head?_append, hhead, Option.some_or]
  have htext {token : Token} {text : String} (h : token.isPunct text = true) : token.text.toList = text.toList := by
    rw [(Token.isPunct_iff.1 h).2]
  simp only [isSpaced, Bool.or_eq_true, Bool.and_eq_true, List.any_cons, List.any_nil, Bool.or_false] at hspaced
  rcases hspaced with (⟨hword, hother⟩ | hcomma | hsemicolon | harrow | hplus) | harrow | hplus
  · rw [← hheadWord, Bool.or_eq_true, beq_iff_eq] at hother
    exact .inl ⟨hlastWord.trans hword, hother⟩
  · rw [htext hcomma] at hlast
    exact .inr (.inl (Option.some.inj hlast ▸ by decide))
  · rw [htext hsemicolon] at hlast
    exact .inr (.inl (Option.some.inj hlast ▸ by decide))
  · exact .inr (.inr (.inr (.inl ⟨front, by rw [htext harrow]; rfl⟩)))
  · rw [htext hplus] at hlast
    exact .inr (.inl (Option.some.inj hlast ▸ by decide))
  · exact .inr (.inr (.inr (.inr ⟨back, by rw [htext harrow]; rfl⟩)))
  · rw [htext hplus] at hhead
    exact .inr (.inr (.inl (Option.some.inj hhead).symm))

theorem isSpaced_of_separates (hprevious : previous.IsClear) (hnext : next.IsClear)
    (hfront : ['-', '>'] <:+ front ++ previous.text.toList → previous.text = "->")
    (hback : ['-', '>'] <+: next.text.toList ++ back → next.text = "->")
    (hseparates : Separates (front ++ previous.text.toList) (next.text.toList ++ back)) :
    isSpaced previous next = true := by
  obtain ⟨last, hlast, -, hlastWord⟩ := hprevious.isClearText.last
  obtain ⟨head, hhead, -, -, hheadWord⟩ := hnext.isClearText.head
  obtain ⟨l, d, hl, hd, -, -, hcases⟩ := hseparates
  obtain rfl : last = l := by
    rw [List.getLast?_append, hlast, Option.some_or] at hl
    exact Option.some.inj hl
  obtain rfl : head = d := by
    rw [List.head?_append, hhead, Option.some_or] at hd
    exact Option.some.inj hd
  simp only [isSpaced, Bool.or_eq_true, Bool.and_eq_true, List.any_cons, List.any_nil, Bool.or_false]
  rcases hcases with ⟨hword, hother⟩ | hmark | rfl | harrow | harrow
  · refine .inl (.inl ⟨hlastWord.symm.trans hword, ?_⟩)
    rwa [← hheadWord, Bool.or_eq_true, beq_iff_eq]
  · have hpunct := hprevious.isPunct_of_last (List.mem_append_left ['-'] hmark) hlast
    simp only [List.mem_cons, List.not_mem_nil, or_false] at hmark
    rcases hmark with rfl | rfl | rfl
    · exact .inl (.inr (.inl hpunct))
    · exact .inl (.inr (.inr (.inl hpunct)))
    · exact .inl (.inr (.inr (.inr (.inr hpunct))))
  · exact .inr (.inr (hnext.isPunct_of_head (by decide) hhead))
  · exact .inl (.inr (.inr (.inr (.inl ((hprevious.isPunct_iff (by decide)).2 (hfront harrow))))))
  · exact .inr (.inl ((hnext.isPunct_iff (by decide)).2 (hback harrow)))

/-- A space is written between two tokens just where one belongs between what ends with the one and what begins with
the other. -/
theorem isSpaced_iff_separates (front back : List Char) (hprevious : previous.IsClear) (hnext : next.IsClear)
    (hfront : ['-', '>'] <:+ front ++ previous.text.toList → previous.text = "->")
    (hback : ['-', '>'] <+: next.text.toList ++ back → next.text = "->") :
    isSpaced previous next = true ↔ Separates (front ++ previous.text.toList) (next.text.toList ++ back) := by
  constructor
  · exact separates_of_isSpaced front back hprevious hnext
  · exact isSpaced_of_separates hprevious hnext hfront hback

end Separates

/-! ### The places of a spelling -/

/-- A place of a text at which no literal and no comment begins, an apostrophe begins a lifetime, blanks are single
spaces where one belongs, and where one belongs and there is none, both sides are of one word. -/
structure IsJoint (front back : List Char) : Prop where
  noQuote : ¬['"'] <+: back
  noComment : ¬['/', '/'] <+: back ∧ ¬['/', '*'] <+: back
  apostrophe : ∀ rest, back = '\'' :: rest → ∃ c more, rest = c :: more ∧ isWordStart c = true
  gap : ∀ c rest, back = c :: rest → isBlank c = true → c = ' ' ∧ Separates front rest
  joint : Separates front back → ∃ last head, front.getLast? = some last ∧ back.head? = some head ∧
    isWord last = true ∧ isWord head = true

/-- Two tokens that are no longer two, or no tokens at all, where nothing stands between them. -/
def Token.clashes (previous next : Token) : Bool :=
  previous.isPunct "-" && next.isPunct ">" ||
    previous.isPunct "/" && (next.isPunct "/" || next.isPunct "*")

section Joints

variable {token previous next : Token} {front back text : List Char} {rest : List Token}

theorem isJoint_nil (front : List Char) : IsJoint front [] where
  noQuote := by simp
  noComment := by simp
  apostrophe := by simp
  gap := by simp
  joint := by
    rintro ⟨last, head, -, hhead, -⟩
    exact absurd hhead (by simp)

theorem not_separates_nil (back : List Char) : ¬Separates [] back := by
  rintro ⟨last, head, hlast, -⟩
  exact absurd hlast (by simp)

theorem isJoint_space (h : Separates front back) : IsJoint front (' ' :: back) where
  noQuote := by simp
  noComment := by simp
  apostrophe := by simp
  gap := by
    rintro c rest heq -
    obtain ⟨rfl, rfl⟩ := List.cons.inj heq
    exact ⟨rfl, h⟩
  joint := by
    rintro ⟨last, head, -, hhead, -, hblank, -⟩
    obtain rfl := Option.some.inj hhead
    exact absurd hblank (by decide)

theorem not_separates_space (front back : List Char) : ¬Separates (front ++ [' ']) back := by
  rintro ⟨last, head, hlast, -, hblank, -⟩
  rw [List.getLast?_concat] at hlast
  obtain rfl := Option.some.inj hlast
  exact absurd hblank (by decide)

/-- The places inside of a token. -/
theorem Token.IsClear.isJoint_inside (h : token.IsClear) {before after : List Char} (hbefore : before ≠ [])
    (hafter : after ≠ []) (htext : token.text.toList = before ++ after) (front back : List Char) :
    IsJoint (front ++ before) (after ++ back) := by
  obtain ⟨c, inner, rfl⟩ := List.exists_cons_of_ne_nil hafter
  have hfollows : followsInside c = true := by
    refine h.isClearText.follows c ?_
    rw [htext, List.tail_append_of_ne_nil hbefore]
    exact List.mem_append_right _ List.mem_cons_self
  have hprecedes : precedesInside (before.getLast hbefore) = true := by
    refine h.isClearText.precedes _ ?_
    rw [htext, List.dropLast_append_cons]
    exact List.mem_append_left _ (List.getLast_mem hbefore)
  have hlast : (front ++ before).getLast? = some (before.getLast hbefore) := by
    rw [List.getLast?_append, List.getLast?_eq_some_getLast hbefore, Option.some_or]
  have hne {d : Char} (hd : followsInside d = false) : d ≠ c := by
    rintro rfl
    exact absurd hfollows (by simp [hd])
  refine ⟨?_, ⟨?_, ?_⟩, ?_, ?_, ?_⟩
  · intro hquote
    exact hne (by decide) (List.cons_prefix_cons.1 hquote).1
  · intro hslashes
    exact hne (by decide) (List.cons_prefix_cons.1 hslashes).1
  · intro hslash
    exact hne (by decide) (List.cons_prefix_cons.1 hslash).1
  · intro rest hrest
    exact absurd (List.cons.inj hrest).1.symm (hne (by decide))
  · intro d rest heq hblank
    obtain ⟨rfl, -⟩ := List.cons.inj heq
    exact absurd hblank (by simp [isBlank_of_followsInside hfollows])
  · rintro ⟨last, head, hends, hbegins, -, -, hcases⟩
    obtain rfl := Option.some.inj (hlast.symm.trans hends)
    obtain rfl := Option.some.inj hbegins
    refine ⟨_, c, hlast, rfl, ?_⟩
    have hnotLast {d : Char} (hd : precedesInside d = false) : before.getLast hbefore ≠ d := by
      intro heq
      rw [heq, hd] at hprecedes
      exact absurd hprecedes (by simp)
    rcases hcases with ⟨hword, hother | hother⟩ | hmark | hplus | ⟨more, harrow⟩ | harrow
    · exact ⟨hword, hother⟩
    · exact absurd hother.symm (hne (by decide))
    · have hall : ∀ d ∈ [',', ';', '+'], precedesInside d = false :=
        List.all_iff_forall_prop.1 (by decide)
      exact absurd rfl (hnotLast (hall _ hmark))
    · exact absurd hplus.symm (hne (by decide))
    · rw [← harrow, List.getLast?_append] at hlast
      exact absurd (Option.some.inj hlast).symm (hnotLast (by decide))
    · exact absurd (List.cons_prefix_cons.1 harrow).1 (hne (by decide))

/-- The place in front of a token where no space belongs. -/
theorem Token.IsClear.isJoint_before (h : token.IsClear) (hnot : ¬Separates front (token.text.toList ++ back))
    (hback : token.text = "/" → ∀ c ∈ ['/', '*'], back.head? ≠ some c) :
    IsJoint front (token.text.toList ++ back) := by
  obtain ⟨c, hhead, hblank, hquote, -⟩ := h.isClearText.head
  obtain ⟨inner, htext⟩ : ∃ inner, token.text.toList = c :: inner := by
    cases htext : token.text.toList with
    | nil => exact absurd hhead (by simp [htext])
    | cons d inner => exact ⟨inner, by rw [htext] at hhead; rw [Option.some.inj hhead]⟩
  have hslash {d : Char} (hd : d ∈ ['/', '*']) : ¬['/', d] <+: token.text.toList ++ back := by
    rintro ⟨more, hmore⟩
    have hc : '/' = c := by
      rw [htext] at hmore
      exact (List.cons.inj hmore).1
    subst hc
    have hslash := h.isPunct_of_head (by decide) hhead
    have hwritten : token.text = "/" := (h.isPunct_iff (by decide)).1 hslash
    rw [hwritten] at hmore
    obtain rfl := (List.cons.inj hmore).2
    exact hback hwritten d hd rfl
  refine ⟨?_, ⟨hslash (by decide), hslash (by decide)⟩, ?_, ?_, fun hseparates => absurd hseparates hnot⟩
  · intro hprefix
    rw [htext] at hprefix
    exact hquote (List.cons_prefix_cons.1 hprefix).1.symm
  · intro rest hrest
    rw [htext, List.cons_append] at hrest
    obtain ⟨rfl, rfl⟩ := List.cons.inj hrest
    obtain ⟨d, more, rfl, hstart⟩ := Lexeme.head_of_mem_name (h.isClearText.apostrophe inner htext)
    exact ⟨d, more ++ back, rfl, hstart⟩
  · intro d rest heq hd
    rw [htext, List.cons_append] at heq
    obtain ⟨rfl, -⟩ := List.cons.inj heq
    exact absurd hd (by simp [hblank])

/-- All places of a text behind the other one are joints, where `back` follows the text. -/
def Joined (front text : List Char) : Prop :=
  ∀ before after, text = before ++ after → IsJoint (front ++ before) after

theorem Joined.cons {c : Char} (h : Joined (front ++ [c]) text) (hjoint : IsJoint front (c :: text)) :
    Joined front (c :: text) := by
  intro before after heq
  cases before with
  | nil =>
    rw [List.nil_append] at heq
    rwa [List.append_nil, ← heq]
  | cons d before =>
    obtain ⟨rfl, rfl⟩ := List.cons.inj heq
    rw [List.append_cons]
    exact h before after rfl

/-- The places of a token where no space belongs in front of it, and of what follows it. -/
theorem Token.IsClear.joined (h : token.IsClear) (hnot : ¬Separates front (token.text.toList ++ back))
    (hback : token.text = "/" → ∀ c ∈ ['/', '*'], back.head? ≠ some c)
    (hjoined : Joined (front ++ token.text.toList) back) : Joined front (token.text.toList ++ back) := by
  intro before after heq
  rcases List.append_eq_append_iff.1 heq with ⟨beyond, rfl, hbeyond⟩ | ⟨inside, htext, rfl⟩
  · rw [← List.append_assoc]
    exact hjoined beyond after hbeyond
  · by_cases hbefore : before = []
    · obtain rfl : token.text.toList = inside := by rw [htext, hbefore, List.nil_append]
      rw [hbefore, List.append_nil]
      exact h.isJoint_before hnot hback
    · by_cases hinside : inside = []
      · rw [hinside, List.append_nil] at htext
        rw [← htext, hinside]
        simpa using hjoined [] back rfl
      · exact h.isJoint_inside hbefore hinside htext front back

/-- What follows a token in a spelling begins with a space or with the next token. -/
theorem head_of_spellAfter {c : Char} (hclear : ∀ token ∈ rest, token.IsClear) (hblank : isBlank c = false)
    (h : (spellAfter previous rest).toList.head? = some c) :
    ∃ next more, rest = next :: more ∧ next.text.toList.head? = some c := by
  cases rest with
  | nil => exact absurd h (by simp [spellAfter])
  | cons next more =>
    refine ⟨next, more, rfl, ?_⟩
    obtain ⟨d, hd, -⟩ := (hclear next List.mem_cons_self).isClearText.head
    rw [spellAfter, String.toList_append, String.toList_append] at h
    split at h
    · obtain rfl := Option.some.inj h
      exact absurd hblank (by decide)
    · rw [← h]
      simp [hd]

/-- Tokens that stay apart in a spelling: none is a literal, and no two of them are an arrow or begin a comment. -/
structure StayApart (tokens : List Token) : Prop where
  clear : ∀ token ∈ tokens, token.IsClear
  chain : tokens.IsChain fun token next => token.clashes next = false

theorem StayApart.tail (h : StayApart (token :: rest)) : StayApart rest where
  clear other hmem := h.clear other (List.mem_cons_of_mem token hmem)
  chain := h.chain.tail

/-- The mark with which a token would clash does not follow it. -/
theorem StayApart.head_ne (h : StayApart (token :: rest)) {c : Char} (hc : c ∈ ['/', '*', '>'])
    (hclashes : ∀ next : Token, next.isPunct (.singleton c) = true → token.clashes next = true) :
    (spellAfter token rest).toList.head? ≠ some c := by
  intro hhead
  have hmarks : ∀ c ∈ ['/', '*', '>'], isBlank c = false ∧ c ∈ ['/', '*', '+', '>'] :=
    List.all_iff_forall_prop.1 (by decide)
  obtain ⟨hblank, hmark⟩ := hmarks c hc
  obtain ⟨next, more, rfl, hnext⟩ := head_of_spellAfter h.tail.clear hblank hhead
  have hpunct := (h.tail.clear next List.mem_cons_self).isPunct_of_head hmark hnext
  exact absurd (hclashes next hpunct) (by simp [(List.isChain_cons_cons.1 h.chain).1])

theorem StayApart.no_arrow (h : StayApart (token :: rest)) (htext : token.text = "-") :
    ¬['>'] <+: (spellAfter token rest).toList := by
  rintro ⟨more, hmore⟩
  have hpunct := ((h.clear token List.mem_cons_self).isPunct_iff (by decide)).2 htext
  have hne := h.head_ne (c := '>') (by decide) fun next hnext => by
    simp [Token.clashes, hpunct, show next.isPunct ">" = true from hnext]
  exact hne (by rw [← hmore]; rfl)

theorem StayApart.no_comment (h : StayApart (token :: rest)) (htext : token.text = "/") :
    ∀ c ∈ ['/', '*'], (spellAfter token rest).toList.head? ≠ some c := by
  intro c hc
  have hpunct := ((h.clear token List.mem_cons_self).isPunct_iff (by decide)).2 htext
  refine h.head_ne (List.mem_append_left ['>'] hc) fun next hnext => ?_
  rcases List.mem_pair.1 hc with rfl | rfl
  · simp [Token.clashes, hpunct, show next.isPunct "/" = true from hnext]
  · simp [Token.clashes, hpunct, show next.isPunct "*" = true from hnext]

theorem StayApart.joined_spellAfter (h : StayApart (previous :: rest))
    (harrow : ['-', '>'] <:+ front ++ previous.text.toList → previous.text = "->") :
    Joined (front ++ previous.text.toList) (spellAfter previous rest).toList := by
  induction rest generalizing front previous with
  | nil =>
    intro before after heq
    obtain ⟨-, rfl⟩ := List.append_eq_nil_iff.1 heq.symm
    exact isJoint_nil _
  | cons next rest ih =>
    have hprevious := h.clear previous List.mem_cons_self
    have hnext := h.tail.clear next List.mem_cons_self
    have hspaced := isSpaced_iff_separates front _ hprevious hnext harrow
      (hnext.text_of_arrow_prefix h.tail.no_arrow)
    rw [spellAfter, String.toList_append, String.toList_append]
    by_cases hspace : isSpaced previous next = true
    · have hjoined : Joined (front ++ previous.text.toList ++ [' '])
          (next.text.toList ++ (spellAfter next rest).toList) := by
        refine hnext.joined (not_separates_space _ _) h.tail.no_comment (ih h.tail ?_)
        refine hnext.text_of_arrow_suffix ?_
        rintro - ⟨more, hmore⟩
        exact absurd (List.append_inj' hmore rfl).2 (by decide)
      rw [if_pos hspace, List.append_assoc]
      exact hjoined.cons (isJoint_space (hspaced.1 hspace))
    · rw [if_neg hspace]
      refine hnext.joined (fun hseparates => hspace (hspaced.2 hseparates)) h.tail.no_comment (ih h.tail ?_)
      refine hnext.text_of_arrow_suffix ?_
      rintro htext ⟨more, hmore⟩
      -- a dash in front of this mark would be the token before it
      have hdash : previous.text.toList.getLast? = some '-' := by
        obtain ⟨c, hc, -⟩ := hprevious.isClearText.last
        have hends := congrArg List.getLast? hmore
        rw [List.getLast?_append, List.getLast?_append, hc] at hends
        exact hc.trans hends.symm
      have hclash : previous.clashes next = true := by
        have hpunct : previous.isPunct "-" = true := hprevious.isPunct_of_last (by decide) hdash
        simp [Token.clashes, hpunct, (hnext.isPunct_iff (by decide)).2 htext]
      exact absurd hclash (by simp [(List.isChain_cons_cons.1 h.chain).1])

/-- All places of the spelling of tokens that stay apart are joints. -/
theorem StayApart.joined_spell {tokens : List Token} (h : StayApart tokens) : Joined [] (spell tokens).toList := by
  cases tokens with
  | nil =>
    intro before after heq
    obtain ⟨-, rfl⟩ := List.append_eq_nil_iff.1 heq.symm
    exact isJoint_nil _
  | cons token rest =>
    have htoken := h.clear token List.mem_cons_self
    rw [spell, String.toList_append]
    refine htoken.joined (not_separates_nil _) h.no_comment (h.joined_spellAfter ?_)
    refine htoken.text_of_arrow_suffix fun _ hdash => ?_
    exact absurd (List.suffix_nil.1 hdash) (by simp)

end Joints

end FfiBindings.Rust
