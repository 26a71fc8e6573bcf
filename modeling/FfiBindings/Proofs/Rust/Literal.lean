import FfiBindings.Proofs.Rust.Pattern

/-!
The literals. A raw string is measured from its hashes on, as its letters only come before them (`rawTailLength?`); the
body of a string or of a character literal is read part by part, and what is read is what the parts of the pattern are.
Each of them ends by itself: it is taken as it is whatever comes after it (`Delimits`), so no literal is the beginning of
another one of its kind (`Delimits.eq_of_startsWith`).
-/

set_option autoImplicit false
set_option relaxedAutoImplicit false

namespace FfiBindings.Rust

open Text Pattern
open scoped Computability

namespace Lexeme

variable {cs rest : List Char} {size : Nat}

/-! ### Texts that end by themselves -/

/-- A length function takes each text of a language as it is, whatever comes after it. -/
def Delimits (length? : List Char → Option Nat) (language : Language Char) : Prop :=
  ∀ text ∈ language, ∀ rest, length? (text ++ rest) = some text.length

variable {length? other? : List Char → Option Nat} {language other : Language Char}

theorem Delimits.eq_of_startsWith (h : Delimits length? language) {text longer : List Char} (htext : text ∈ language)
    (hlonger : longer ∈ language) (hstarts : text <+: longer) : text = longer := by
  obtain ⟨rest, rfl⟩ := hstarts
  have hlength := h _ hlonger []
  rw [List.append_nil, h text htext rest, Option.some.injEq] at hlength
  exact (List.prefix_append text rest).eq_of_length hlength

theorem Delimits.longest (h : Delimits length? language) {text : List Char} (rest : List Char)
    (htext : text ∈ language) : ∃ size, length? (text ++ rest) = some size ∧ text.length ≤ size :=
  ⟨text.length, h text htext rest, le_rfl⟩

/-- A mark comes before each text of a language, and the letter for bytes may come before the mark. -/
theorem Delimits.byteMarked {mark : Char} (h : Delimits length? language)
    (hplain : ∀ rest, other? (mark :: rest) = (length? rest).map (· + 1))
    (hbytes : ∀ rest, other? ('b' :: mark :: rest) = (length? rest).map (· + 2)) :
    Delimits other? ((1 + exactly ['b']) * (exactly [mark] * language)) := by
  intro text htext rest
  rcases mem_optional_mul.1 htext with hmark | hbyte
  · obtain ⟨inner, rfl, hinner⟩ := mem_exactly_mul.1 hmark
    show other? (mark :: (inner ++ rest)) = _
    rw [hplain, h inner hinner rest]
    rfl
  · obtain ⟨marked, rfl, hmarked⟩ := mem_exactly_mul.1 hbyte
    obtain ⟨inner, rfl, hinner⟩ := mem_exactly_mul.1 hmarked
    show other? ('b' :: mark :: (inner ++ rest)) = _
    rw [hbytes, h inner hinner rest]
    rfl

/-- Two alternatives of which the first does not fit where a text of the second begins. -/
theorem Delimits.or (h : Delimits length? language) (hother : Delimits other? other)
    (halone : ∀ text ∈ other, ∀ rest, length? (text ++ rest) = none) :
    Delimits (fun cs => (length? cs).or (other? cs)) (language + other) := by
  rintro text (htext | htext) rest
  · show (length? _).or _ = _
    rw [h text htext rest, Option.some_or]
  · show (length? _).or _ = _
    rw [halone text htext rest, Option.none_or, hother text htext rest]

/-! ### Strings -/

theorem replicate_prefix {count : Nat} {c d : Char} (hne : c ≠ d) {body : List Char}
    (h : List.replicate count c <+: body ++ d :: rest) : List.replicate count c <+: body := by
  induction count generalizing body with
  | zero => exact List.nil_prefix
  | succ count ih =>
    rw [List.replicate_succ] at h ⊢
    cases body with
    | nil => exact absurd (List.cons_prefix_cons.1 h).1 hne
    | cons e body =>
      obtain ⟨rfl, hrest⟩ := List.cons_prefix_cons.1 h
      exact List.cons_prefix_cons.2 ⟨rfl, ih hrest⟩

theorem exists_of_rawBodyLength? {hashes : Nat} (h : rawBodyLength? hashes cs = some size) :
    ∃ body rest, cs = body ++ '"' :: List.replicate hashes '#' ++ rest ∧
      ¬('"' :: List.replicate hashes '#') <:+: body ∧ size = body.length + (1 + hashes) := by
  induction cs generalizing size with
  | nil => exact absurd h (by simp [rawBodyLength?])
  | cons c rest ih =>
    unfold rawBodyLength? at h
    split at h
    · rename_i hclosing
      obtain rfl := Option.some.inj h
      rw [Bool.and_eq_true, decide_eq_true_eq, List.isPrefixOf_iff_prefix] at hclosing
      obtain ⟨rfl, after, rfl⟩ := hclosing
      refine ⟨[], after, rfl, ?_, by simp⟩
      intro hinside
      exact absurd (List.infix_nil.1 hinside) (by simp)
    · rename_i hopen
      obtain ⟨inner, hinner, rfl⟩ := Option.map_eq_some_iff.1 h
      obtain ⟨body, after, rfl, hbody, rfl⟩ := ih hinner
      refine ⟨c :: body, after, by simp, ?_, by rw [List.length_cons]; omega⟩
      intro hinside
      rcases List.infix_cons_iff.1 hinside with hstarts | hlater
      · obtain ⟨rfl, hhashes⟩ := List.cons_prefix_cons.1 hstarts
        refine hopen ?_
        rw [Bool.and_eq_true, decide_eq_true_eq, List.isPrefixOf_iff_prefix]
        exact ⟨rfl, (hhashes.trans (List.prefix_append _ _)).trans (List.prefix_append _ _)⟩
      · exact hbody hlater

theorem rawBodyLength?_append {hashes : Nat} {body : List Char}
    (hbody : ¬('"' :: List.replicate hashes '#') <:+: body) (rest : List Char) :
    rawBodyLength? hashes (body ++ '"' :: (List.replicate hashes '#' ++ rest)) =
      some (body.length + (1 + hashes)) := by
  induction body with
  | nil =>
    rw [List.nil_append, rawBodyLength?, if_pos, List.length_nil, Nat.zero_add]
    rw [Bool.and_eq_true, decide_eq_true_eq, List.isPrefixOf_iff_prefix]
    exact ⟨rfl, List.prefix_append _ _⟩
  | cons c body ih =>
    rw [List.cons_append, rawBodyLength?, if_neg, ih, Option.map_some, List.length_cons]
    · congr 1
      omega
    · exact fun hinside => hbody (List.infix_cons_iff.2 (.inr hinside))
    · rw [Bool.and_eq_true, decide_eq_true_eq, List.isPrefixOf_iff_prefix]
      rintro ⟨rfl, hhashes⟩
      refine hbody (List.infix_cons_iff.2 (.inl (List.cons_prefix_cons.2 ⟨rfl, ?_⟩)))
      exact replicate_prefix (by decide) hhashes

/-- The length of what follows the letters of a raw string. -/
def rawTailLength? (cs : List Char) : Option Nat :=
  let hashes := (cs.takeWhile (· == '#')).length
  match cs.drop hashes with
  | '"' :: body => (rawBodyLength? hashes body).map (hashes + 1 + ·)
  | _ => none

theorem takeWhile_hashes {hashes : Nat} {c : Char} (hc : c ≠ '#') (rest : List Char) :
    (List.replicate hashes '#' ++ c :: rest).takeWhile (· == '#') = List.replicate hashes '#' := by
  rw [List.takeWhile_append_of_pos, List.takeWhile_cons_of_neg, List.append_nil]
  · simpa using hc
  · intro d hd
    rw [(List.mem_replicate.1 hd).2]
    rfl

theorem delimits_rawTail : Delimits rawTailLength? rawBody := by
  rintro _ ⟨hashes, body, rfl, hbody⟩ rest
  unfold rawTailLength?
  rw [List.append_assoc, List.cons_append, takeWhile_hashes (by decide), List.length_replicate]
  dsimp only
  rw [List.drop_left' List.length_replicate, List.append_assoc, List.cons_append]
  show (rawBodyLength? hashes _).map _ = _
  rw [rawBodyLength?_append hbody, Option.map_some, Option.some.injEq]
  simp only [List.length_append, List.length_cons, List.length_replicate]
  omega

theorem measures_rawTail : Measures rawTailLength? rawBody where
  mem := by
    intro cs size h
    unfold rawTailLength? at h
    dsimp only at h
    split at h
    · rename_i tail hdrop
      obtain ⟨inner, hinner, rfl⟩ := Option.map_eq_some_iff.1 h
      obtain ⟨body, rest, rfl, hbody, rfl⟩ := exists_of_rawBodyLength? hinner
      have hhashes : cs.takeWhile (· == '#') = List.replicate (cs.takeWhile (· == '#')).length '#' := by
        refine List.eq_replicate_iff.2 ⟨rfl, ?_⟩
        intro c hc
        exact eq_of_beq (List.all_eq_true.1 List.all_takeWhile c hc)
      have htaken : cs.takeWhile (· == '#') = cs.take (cs.takeWhile (· == '#')).length :=
        List.prefix_iff_eq_take.1 (List.takeWhile_prefix _)
      refine ⟨_, ⟨(cs.takeWhile (· == '#')).length, body, rfl, hbody⟩, rest, ?_, ?_⟩
      · conv_lhs => rw [← List.take_append_drop (cs.takeWhile (· == '#')).length cs, hdrop, ← htaken]
        rw [← hhashes]
        simp only [List.append_assoc, List.cons_append]
      · simp only [List.length_append, List.length_cons, List.length_replicate]
        omega
    · exact absurd h (by simp)
  longest := Delimits.longest delimits_rawTail

theorem rawStringLength?_eq {mark : Nat} (h : rawMark? cs = some mark) :
    rawStringLength? cs = (rawTailLength? (cs.drop mark)).map (· + mark) := by
  unfold rawStringLength? rawTailLength?
  rw [h]
  dsimp only [Option.bind_eq_bind, Option.bind_some]
  rw [List.drop_drop]
  generalize List.drop (mark + _) cs = tail
  by_cases hquote : ∃ body, tail = '"' :: body
  · obtain ⟨body, rfl⟩ := hquote
    show (rawBodyLength? _ body).map _ = ((rawBodyLength? _ body).map _).map _
    rw [Option.map_map]
    congr 1
    funext size
    simp only [Function.comp_apply]
    omega
  · rw [not_exists] at hquote
    split
    · rename_i body
      exact absurd rfl (hquote body)
    · simp

theorem delimits_rawString : Delimits rawStringLength? ((1 + exactly ['b']) * (exactly ['r'] * rawBody)) :=
  Delimits.byteMarked delimits_rawTail (fun _ => rawStringLength?_eq rfl) fun _ => rawStringLength?_eq rfl

theorem measures_rawString : Measures rawStringLength? ((1 + exactly ['b']) * (exactly ['r'] * rawBody)) := by
  refine Measures.byteMarked measures_rawTail ?_ ?_ ?_
  · intro rest
    exact rawStringLength?_eq rfl
  · intro rest
    exact rawStringLength?_eq rfl
  · intro cs size h
    obtain ⟨mark, hmark, -⟩ := Option.bind_eq_some_iff.1 h
    unfold rawMark? at hmark
    split at hmark
    · exact ⟨_, .inl rfl⟩
    · exact ⟨_, .inr rfl⟩
    · exact absurd hmark (by simp)

theorem delimits_quotedBody : Delimits quotedBodyLength? (quotedPart∗ * exactly ['"']) := by
  intro text htext rest
  obtain ⟨body, hbody, last, rfl, rfl⟩ := Language.mem_mul.1 htext
  obtain ⟨parts, rfl, hparts⟩ := Language.mem_kstar.1 hbody
  clear htext hbody
  induction parts with
  | nil => rfl
  | cons part parts ih =>
    have hlater := ih fun other hother => hparts other (List.mem_cons_of_mem _ hother)
    rw [List.flatten_cons, List.append_assoc part, List.append_assoc part, List.length_append]
    rcases hparts part List.mem_cons_self with hescape | ⟨c, hc, rfl⟩
    · obtain ⟨_, rfl, c, -, rfl⟩ := mem_exactly_mul.1 hescape
      show (quotedBodyLength? (parts.flatten ++ ['"'] ++ rest)).map (· + 2) = _
      rw [hlater, Option.map_some, Nat.add_comm]
      rfl
    · rw [Bool.and_eq_true, bne_iff_ne, bne_iff_ne] at hc
      rw [List.singleton_append, quotedBodyLength?.eq_4 _ _ (by simp [hc.2]) (by simp [hc.2]) hc.1, hlater,
        Option.map_some, List.length_singleton, Nat.add_comm]

theorem measures_quotedBody : Measures quotedBodyLength? (quotedPart∗ * exactly ['"']) where
  mem := by
    intro cs size h
    fun_induction quotedBodyLength? cs generalizing size with
    | case1 c rest ih =>
      obtain ⟨inner, hinner, rfl⟩ := Option.map_eq_some_iff.1 h
      obtain ⟨text, htext, after, rfl, rfl⟩ := ih hinner
      have hpart : ['\\', c] ∈ quotedPart :=
        .inl (mem_exactly_mul.2 ⟨[c], rfl, c, rfl, rfl⟩)
      exact ⟨_, append_mem_kstar_mul hpart htext, after, rfl, rfl⟩
    | case2 => exact absurd h (by simp)
    | case3 rest =>
      obtain rfl := Option.some.inj h
      exact ⟨['"'], Language.append_mem_mul (Language.nil_mem_kstar _) rfl, rest, rfl, rfl⟩
    | case4 c rest hescape hend hquote ih =>
      obtain ⟨inner, hinner, rfl⟩ := Option.map_eq_some_iff.1 h
      obtain ⟨text, htext, after, rfl, rfl⟩ := ih hinner
      have hpart : [c] ∈ quotedPart := by
        refine .inr ⟨c, ?_, rfl⟩
        rw [Bool.and_eq_true, bne_iff_ne, bne_iff_ne]
        refine ⟨hquote, ?_⟩
        rintro rfl
        cases htail : text ++ after with
        | nil => exact hend rfl htail
        | cons d tail => exact hescape d tail rfl htail
      exact ⟨_, append_mem_kstar_mul hpart htext, after, rfl, rfl⟩
    | case5 => exact absurd h (by simp)
  longest := Delimits.longest delimits_quotedBody

theorem delimits_quotedString :
    Delimits quotedStringLength? ((1 + exactly ['b']) * (exactly ['"'] * (quotedPart∗ * exactly ['"']))) :=
  Delimits.byteMarked delimits_quotedBody (fun _ => rfl) fun _ => rfl

theorem measures_quotedString :
    Measures quotedStringLength? ((1 + exactly ['b']) * (exactly ['"'] * (quotedPart∗ * exactly ['"']))) := by
  refine Measures.byteMarked measures_quotedBody ?_ ?_ ?_
  · intro rest
    rfl
  · intro rest
    rfl
  · intro cs size h
    unfold quotedStringLength? at h
    split at h
    · exact ⟨_, .inl rfl⟩
    · exact ⟨_, .inr rfl⟩
    · exact absurd h (by simp)

theorem delimits_string : Delimits stringLength? (Token.Kind.pattern .string) := by
  refine Delimits.or delimits_rawString delimits_quotedString ?_
  intro text htext rest
  rcases mem_optional_mul.1 htext with hplain | hbytes
  · obtain ⟨inner, rfl, -⟩ := mem_exactly_mul.1 hplain
    rfl
  · obtain ⟨marked, rfl, hmarked⟩ := mem_exactly_mul.1 hbytes
    obtain ⟨inner, rfl, -⟩ := mem_exactly_mul.1 hmarked
    rfl

theorem measures_string : Measures stringLength? (Token.Kind.pattern .string) := by
  refine Measures.or measures_rawString measures_quotedString ?_
  intro cs size h
  obtain ⟨mark, hmark, -⟩ := Option.bind_eq_some_iff.1 h
  unfold rawMark? at hmark
  split at hmark
  · rfl
  · rfl
  · exact absurd hmark (by simp)

/-! ### Characters -/

theorem takeWhile_hexDigits {digits : List Char} (h : ∀ c ∈ digits, isHexDigit c = true) (rest : List Char) :
    (digits ++ '\x7d' :: rest).takeWhile isHexDigit = digits := by
  rw [List.takeWhile_append_of_pos h, List.takeWhile_cons_of_neg (by decide), List.append_nil]

theorem delimits_charBody : Delimits charBodyLength? (charPart * exactly ['\'']) := by
  intro text htext rest
  obtain ⟨part, hpart, last, rfl, rfl⟩ := Language.mem_mul.1 htext
  rcases hpart with ((hcode | hbyte) | hescape) | ⟨c, hc, rfl⟩
  · obtain ⟨front, hfront, close, rfl, rfl⟩ := Language.mem_mul.1 hcode
    obtain ⟨digits, rfl, hdigits⟩ := mem_exactly_mul.1 hfront
    obtain ⟨hne, hhex⟩ := mem_run.1 hdigits
    have hcs : ['\\', 'u', '\x7b'] ++ digits ++ ['\x7d'] ++ ['\''] ++ rest =
        '\\' :: 'u' :: '\x7b' :: (digits ++ '\x7d' :: '\'' :: rest) := by simp
    rw [hcs, charBodyLength?, takeWhile_hexDigits hhex, List.drop_left]
    exact (if_neg (by simpa using hne)).trans (by simp)
  · obtain ⟨front, hfront, _, ⟨b, hb, rfl⟩, rfl⟩ := Language.mem_mul.1 hbyte
    obtain ⟨_, rfl, a, ha, rfl⟩ := mem_exactly_mul.1 hfront
    show (if isHexDigit a && isHexDigit b then _ else _) = _
    rw [ha, hb]
    rfl
  · obtain ⟨_, rfl, c, -, rfl⟩ := mem_exactly_mul.1 hescape
    show charBodyLength? ('\\' :: c :: '\'' :: rest) = some 3
    unfold charBodyLength?
    split
    · rename_i hcs
      exact absurd hcs (by simp)
    · rename_i a b tail hcs
      obtain ⟨-, rfl, -⟩ : c = 'x' ∧ '\'' = a ∧ rest = b :: '\'' :: tail := by simpa using hcs
      rfl
    · rfl
    · rename_i hescape hcs
      obtain ⟨rfl, rfl, rfl⟩ := by simpa using hcs
      exact absurd rfl (hescape rest rfl)
    · rename_i hescape _
      exact absurd rfl (hescape c rest)
  · rw [Bool.and_eq_true, Bool.and_eq_true, bne_iff_ne, bne_iff_ne, bne_iff_ne] at hc
    show charBodyLength? (c :: '\'' :: rest) = some 2
    unfold charBodyLength?
    split
    · rename_i hcs
      exact absurd (List.cons.inj hcs).1 hc.1.1
    · rename_i hcs
      exact absurd (List.cons.inj hcs).1 hc.1.1
    · rename_i hcs
      exact absurd (List.cons.inj hcs).1 hc.1.1
    · rename_i hcs
      obtain ⟨rfl, rfl⟩ := by simpa using hcs
      rw [if_neg]
      simpa [and_assoc] using hc
    · rename_i hplain
      exact absurd rfl (hplain c rest)

theorem measures_charBody : Measures charBodyLength? (charPart * exactly ['\'']) where
  mem := by
    intro cs size h
    have hclosed (rest : List Char) {part : List Char} (hpart : part ∈ charPart) (hsize : part.length + 1 = size)
        (hcs : cs = part ++ '\'' :: rest) :
        ∃ text ∈ charPart * exactly ['\''], ∃ rest, cs = text ++ rest ∧ text.length = size :=
      ⟨part ++ ['\''], Language.append_mem_mul hpart rfl, rest, by rw [hcs]; simp, by simpa using hsize⟩
    unfold charBodyLength? at h
    split at h
    · rename_i rest
      dsimp only at h
      split at h
      · rename_i after hdrop
        split at h
        · exact absurd h (by simp)
        · rename_i hdigits
          obtain rfl := Option.some.inj h
          have hrun : rest.takeWhile isHexDigit ∈ one isHexDigit * (one isHexDigit)∗ := by
            refine mem_run.2 ⟨fun hnil => hdigits (by rw [hnil]; rfl), ?_⟩
            exact fun c hc => List.all_eq_true.1 List.all_takeWhile c hc
          have hrest : rest = rest.takeWhile isHexDigit ++ '\x7d' :: '\'' :: after := by
            rw [← hdrop]
            conv_lhs => rw [← List.take_append_drop (rest.takeWhile isHexDigit).length rest]
            rw [← List.prefix_iff_eq_take.1 (List.takeWhile_prefix isHexDigit)]
          have hbraced : ['\\', 'u', '\x7b'] ++ rest.takeWhile isHexDigit ++ ['\x7d'] ∈
              exactly ['\\', 'u', '\x7b'] * (one isHexDigit * (one isHexDigit)∗) * exactly ['\x7d'] :=
            Language.append_mem_mul (Language.append_mem_mul rfl hrun) rfl
          refine hclosed after (.inl (.inl (.inl hbraced))) ?_ ?_
          · simp
          · conv_lhs => rw [hrest]
            simp
      · exact absurd h (by simp)
    · rename_i a b rest
      split at h
      · rename_i hhex
        obtain rfl := Option.some.inj h
        rw [Bool.and_eq_true] at hhex
        exact hclosed _ (.inl (.inl (.inr (Language.append_mem_mul (Language.append_mem_mul rfl ⟨a, hhex.1, rfl⟩)
          ⟨b, hhex.2, rfl⟩)))) rfl rfl
      · split at h
        · rename_i hquote
          obtain rfl := Option.some.inj h
          subst hquote
          exact hclosed _ (.inl (.inr (Language.append_mem_mul rfl ⟨'x', rfl, rfl⟩))) rfl rfl
        · exact absurd h (by simp)
    · obtain rfl := Option.some.inj h
      exact hclosed _ (.inl (.inr (Language.append_mem_mul rfl ⟨_, rfl, rfl⟩))) rfl rfl
    · split at h
      · exact absurd h (by simp)
      · rename_i hplain
        obtain rfl := Option.some.inj h
        refine hclosed _ (.inr ⟨_, ?_, rfl⟩) rfl rfl
        simpa [and_assoc] using hplain
    · exact absurd h (by simp)
  longest := Delimits.longest delimits_charBody

theorem delimits_char : Delimits charLength? (Token.Kind.pattern .char) :=
  Delimits.byteMarked delimits_charBody (fun _ => rfl) fun _ => rfl

theorem measures_char : Measures charLength? (Token.Kind.pattern .char) := by
  refine Measures.byteMarked measures_charBody ?_ ?_ ?_
  · intro rest
    rfl
  · intro rest
    rfl
  · intro cs size h
    unfold charLength? at h
    split at h
    · exact ⟨_, .inl rfl⟩
    · exact ⟨_, .inr rfl⟩
    · exact absurd h (by simp)

end Lexeme

end FfiBindings.Rust
