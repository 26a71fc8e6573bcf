import FfiBindings.Rust.Lexeme
import Mathlib.Computability.Language
import Mathlib.Tactic.Common

/-!
The texts of lexemes as languages, one for each alternative of the lexer (`Lexeme.language`), and what the length
functions of the alternatives are to these: each finds the longest text of its language at the beginning of a source,
and nothing only where no text of the language stands there (`Measures`). A raw string ends at the first quote that
closes it and a block comment at the first marker that leaves no comment open, so these languages hold no text and a
longer one that begins with it.
-/

set_option autoImplicit false
set_option relaxedAutoImplicit false

namespace FfiBindings.Rust

open Text
open scoped Computability

/-! ### Patterns -/

namespace Pattern

/-- One character with a property. -/
def one (p : Char → Bool) : Language Char :=
  {cs | ∃ c, p c = true ∧ cs = [c]}

/-- One text alone. -/
def exactly (text : List Char) : Language Char :=
  {text}

variable {p : Char → Bool} {text cs : List Char} {pattern other : Language Char}

theorem mem_one_mul : cs ∈ one p * pattern ↔ ∃ c rest, cs = c :: rest ∧ p c = true ∧ rest ∈ pattern := by
  rw [Language.mem_mul]
  constructor
  · rintro ⟨_, ⟨c, hc, rfl⟩, rest, hrest, rfl⟩
    exact ⟨c, rest, rfl, hc, hrest⟩
  · rintro ⟨c, rest, rfl, hc, hrest⟩
    exact ⟨[c], ⟨c, hc, rfl⟩, rest, hrest, rfl⟩

theorem mem_exactly_mul : cs ∈ exactly text * pattern ↔ ∃ rest, cs = text ++ rest ∧ rest ∈ pattern := by
  rw [Language.mem_mul]
  constructor
  · rintro ⟨_, rfl, rest, hrest, rfl⟩
    exact ⟨rest, rfl, hrest⟩
  · rintro ⟨rest, rfl, hrest⟩
    exact ⟨text, rfl, rest, hrest, rfl⟩

theorem mem_optional_mul : cs ∈ (1 + other) * pattern ↔ cs ∈ pattern ∨ cs ∈ other * pattern := by
  rw [add_mul, one_mul, Language.mem_add]

theorem mem_many : cs ∈ (one p)∗ ↔ ∀ c ∈ cs, p c = true := by
  rw [Language.mem_kstar]
  constructor
  · rintro ⟨parts, rfl, hparts⟩ c hc
    obtain ⟨part, hpart, hmem⟩ := List.mem_flatten.1 hc
    obtain ⟨d, hd, rfl⟩ := hparts part hpart
    rwa [List.mem_singleton.1 hmem]
  · intro h
    refine ⟨cs.map ([·]), (List.flatMap_singleton' cs).symm, ?_⟩
    intro part hpart
    obtain ⟨c, hc, rfl⟩ := List.mem_map.1 hpart
    exact ⟨c, h c hc, rfl⟩

theorem mem_run : cs ∈ one p * (one p)∗ ↔ cs ≠ [] ∧ ∀ c ∈ cs, p c = true := by
  rw [mem_one_mul]
  constructor
  · rintro ⟨c, rest, rfl, hc, hrest⟩
    exact ⟨List.cons_ne_nil c rest, List.forall_mem_cons.2 ⟨hc, mem_many.1 hrest⟩⟩
  · rintro ⟨hne, hall⟩
    obtain ⟨c, rest, rfl⟩ := List.exists_cons_of_ne_nil hne
    obtain ⟨hc, hrest⟩ := List.forall_mem_cons.1 hall
    exact ⟨c, rest, rfl, hc, mem_many.2 hrest⟩

theorem append_mem_kstar_mul {part : List Char} (hpart : part ∈ pattern) (h : text ∈ pattern∗ * other) :
    part ++ text ∈ pattern∗ * other := by
  obtain ⟨front, hfront, back, hback, rfl⟩ := Language.mem_mul.1 h
  obtain ⟨parts, rfl, hparts⟩ := Language.mem_kstar.1 hfront
  refine Language.mem_mul.2 ⟨(part :: parts).flatten, Language.join_mem_kstar ?_, back, hback, by simp⟩
  exact List.forall_mem_cons.2 ⟨hpart, hparts⟩

/-- A word character that is no digit, and word characters after it. -/
def name : Language Char :=
  one isWordStart * (one isWord)∗

/-- A raw string from its hashes on: the body holds no quote that would close the string. -/
def rawBody : Language Char :=
  {cs | ∃ hashes body, cs = List.replicate hashes '#' ++ '"' :: (body ++ '"' :: List.replicate hashes '#') ∧
    ¬('"' :: List.replicate hashes '#') <:+: body}

/-- What stands for one character of a string: a backslash takes the next character with it. -/
def quotedPart : Language Char :=
  exactly ['\\'] * one (fun _ => true) + one fun c => c != '"' && c != '\\'

/-- What stands for the character of a character literal. -/
def charPart : Language Char :=
  exactly ['\\', 'u', '{'] * (one Lexeme.isHexDigit * (one Lexeme.isHexDigit)∗) * exactly ['}'] +
    exactly ['\\', 'x'] * one Lexeme.isHexDigit * one Lexeme.isHexDigit +
    exactly ['\\'] * one (fun _ => true) + one fun c => c != '\\' && c != '\'' && c != '\n'

/-- Comments that are open after a text, counted from left to right. -/
def commentBalance : List Char → Int
  | '/' :: '*' :: rest => commentBalance rest + 1
  | '*' :: '/' :: rest => commentBalance rest - 1
  | _ :: rest => commentBalance rest
  | [] => 0

end Pattern

open Pattern

/-- The texts of the tokens of a kind. A quote is no punctuation, it begins a literal or nothing. -/
def Token.Kind.pattern : Kind → Language Char
  | .string =>
    (1 + exactly ['b']) * (exactly ['r'] * rawBody) +
      (1 + exactly ['b']) * (exactly ['"'] * (quotedPart∗ * exactly ['"']))
  | .char => (1 + exactly ['b']) * (exactly ['\''] * (charPart * exactly ['\'']))
  | .lifetime => exactly ['\''] * Pattern.name
  | .ident => (1 + exactly ['r', '#']) * Pattern.name
  | .number => one isDecimal * ((one isWord)∗ * (1 + exactly ['.'] * (one isDecimal * (one isWord)∗)))
  | .punct =>
    exactly [':', ':'] + exactly ['-', '>'] + exactly ['=', '>'] + exactly ['.', '.', '='] +
      exactly ['.', '.', '.'] + exactly ['.', '.'] +
      one fun c => !isBlank c && !isWord c && c != '"' && c != '\''

/-- The texts of lexemes of one sort. A block comment ends where no comment is open any more for the first time. -/
def Lexeme.language : Lexeme → Language Char
  | .blanks => one isBlank * (one isBlank)∗
  | .lineComment => exactly ['/', '/'] * (one (· != '\n'))∗
  | .blockComment =>
    {cs | ['/', '*'] <+: cs ∧ commentBalance cs = 0 ∧
      ∀ front, ['/', '*'] <+: front → front <+: cs → front ≠ cs → commentBalance front ≠ 0}
  | .token kind => kind.pattern

namespace Lexeme

/-- A length function finds the longest text of a language at the beginning of a source, if there is one. -/
structure Measures (length? : List Char → Option Nat) (language : Language Char) : Prop where
  mem : ∀ {cs size}, length? cs = some size → ∃ text ∈ language, ∃ rest, cs = text ++ rest ∧ text.length = size
  longest : ∀ {text} rest, text ∈ language → ∃ size, length? (text ++ rest) = some size ∧ text.length ≤ size

variable {length? other? : List Char → Option Nat} {language other : Language Char} {cs text rest : List Char}
  {size : Nat}

theorem Measures.not_startsWith (h : Measures length? language) (hnone : length? cs = none) :
    ∀ text ∈ language, ¬text <+: cs := by
  rintro text htext ⟨rest, rfl⟩
  obtain ⟨size, hsize, -⟩ := h.longest rest htext
  rw [hsize] at hnone
  exact absurd hnone (by simp)

/-! ### Names and numbers -/

theorem wordLength_append {word : List Char} (h : ∀ c ∈ word, isWord c = true) (rest : List Char) :
    wordLength (word ++ rest) = word.length + wordLength rest := by
  rw [wordLength, List.takeWhile_append_of_pos h, List.length_append, wordLength]

theorem takeWhile_mem_many (p : Char → Bool) (cs : List Char) : cs.takeWhile p ∈ (one p)∗ :=
  mem_many.2 fun c hc => List.all_eq_true.1 List.all_takeWhile c hc

theorem measures_name : Measures nameLength? name where
  mem := by
    intro cs size h
    unfold nameLength? at h
    split at h
    · rename_i c rest
      split at h
      · rename_i hstart
        obtain rfl := Option.some.inj h
        refine ⟨c :: rest.takeWhile isWord, mem_one_mul.2 ⟨c, _, rfl, hstart, takeWhile_mem_many _ _⟩,
          rest.dropWhile isWord, ?_, ?_⟩
        · rw [List.cons_append, List.takeWhile_append_dropWhile]
        · rw [List.length_cons, wordLength, Nat.add_comm]
      · exact absurd h (by simp)
    · exact absurd h (by simp)
  longest := by
    intro text rest htext
    obtain ⟨c, word, rfl, hstart, hword⟩ := mem_one_mul.1 htext
    refine ⟨1 + wordLength (word ++ rest), ?_, ?_⟩
    · rw [List.cons_append, nameLength?, if_pos hstart]
    · rw [wordLength_append (mem_many.1 hword), List.length_cons]
      omega

/-- A name begins with a word character, so it does not begin with a mark of another lexeme. -/
theorem head_of_mem_name (h : text ∈ name) : ∃ c rest, text = c :: rest ∧ isWordStart c = true := by
  obtain ⟨c, rest, rfl, hstart, -⟩ := mem_one_mul.1 h
  exact ⟨c, rest, rfl, hstart⟩

theorem measures_ident : Measures identLength? (Token.Kind.pattern .ident) where
  mem := by
    intro cs size h
    have hplain (hname : nameLength? cs = some size) :
        ∃ text ∈ Token.Kind.pattern .ident, ∃ rest, cs = text ++ rest ∧ text.length = size := by
      obtain ⟨text, htext, rest, hcs, hsize⟩ := Measures.mem measures_name hname
      exact ⟨text, mem_optional_mul.2 (.inl htext), rest, hcs, hsize⟩
    unfold identLength? at h
    split at h
    · rcases Option.or_eq_some_iff.1 h with hraw | ⟨-, hname⟩
      · obtain ⟨inner, hinner, rfl⟩ := Option.map_eq_some_iff.1 hraw
        obtain ⟨text, htext, rest, rfl, rfl⟩ := Measures.mem measures_name hinner
        exact ⟨['r', '#'] ++ text, mem_optional_mul.2 (.inr (mem_exactly_mul.2 ⟨text, rfl, htext⟩)), rest, rfl, by simp⟩
      · exact hplain hname
    · exact hplain h
  longest := by
    intro text rest htext
    rcases mem_optional_mul.1 htext with hname | hraw
    · obtain ⟨size, hsize, hlong⟩ := Measures.longest measures_name rest hname
      unfold identLength?
      split
      · rename_i after hcs
        cases hraw : nameLength? after with
        | none => exact ⟨size, hsize, hlong⟩
        | some inner =>
          refine ⟨inner + 2, rfl, ?_⟩
          -- The hash ends the plain name that the mark would be.
          obtain ⟨c, word, rfl, -, hword⟩ := mem_one_mul.1 hname
          cases word with
          | nil => simp
          | cons d word =>
            obtain ⟨-, rfl, -⟩ : c = 'r' ∧ d = '#' ∧ word ++ rest = after := by simpa using hcs
            exact absurd (mem_many.1 hword '#' List.mem_cons_self) (by decide)
      · exact ⟨size, hsize, hlong⟩
    · obtain ⟨plain, rfl, hplain⟩ := mem_exactly_mul.1 hraw
      obtain ⟨size, hsize, hlong⟩ := Measures.longest measures_name rest hplain
      refine ⟨size + 2, ?_, ?_⟩
      · show ((nameLength? (plain ++ rest)).map (· + 2)).or _ = _
        rw [hsize]
        rfl
      · rw [List.length_append, List.length_cons, List.length_cons, List.length_nil]
        omega

/-! ### Marks before a text -/

/-- A mark of one letter comes before each text of a language. -/
theorem Measures.marked {mark : Char} (h : Measures length? language)
    (hmarked : ∀ rest, other? (mark :: rest) = (length? rest).map (· + 1))
    (hmark : ∀ {cs size}, other? cs = some size → ∃ rest, cs = mark :: rest) :
    Measures other? (exactly [mark] * language) where
  mem := by
    intro cs size hsize
    obtain ⟨rest, rfl⟩ := hmark hsize
    rw [hmarked] at hsize
    obtain ⟨inner, hinner, rfl⟩ := Option.map_eq_some_iff.1 hsize
    obtain ⟨text, htext, after, rfl, rfl⟩ := h.mem hinner
    exact ⟨mark :: text, mem_exactly_mul.2 ⟨text, rfl, htext⟩, after, rfl, rfl⟩
  longest := by
    intro text rest htext
    obtain ⟨inner, rfl, hinner⟩ := mem_exactly_mul.1 htext
    obtain ⟨size, hsize, hlong⟩ := h.longest rest hinner
    refine ⟨size + 1, ?_, Nat.succ_le_succ hlong⟩
    show other? (mark :: (inner ++ rest)) = _
    rw [hmarked, hsize]
    rfl

/-- A mark comes before each text of a language, and the letter for bytes may come before the mark. -/
theorem Measures.byteMarked {mark : Char} (h : Measures length? language)
    (hplain : ∀ rest, other? (mark :: rest) = (length? rest).map (· + 1))
    (hbytes : ∀ rest, other? ('b' :: mark :: rest) = (length? rest).map (· + 2))
    (hmark : ∀ {cs size}, other? cs = some size → ∃ rest, cs = mark :: rest ∨ cs = 'b' :: mark :: rest) :
    Measures other? ((1 + exactly ['b']) * (exactly [mark] * language)) where
  mem := by
    intro cs size hsize
    obtain ⟨rest, rfl | rfl⟩ := hmark hsize
    · rw [hplain] at hsize
      obtain ⟨inner, hinner, rfl⟩ := Option.map_eq_some_iff.1 hsize
      obtain ⟨text, htext, after, rfl, rfl⟩ := h.mem hinner
      exact ⟨mark :: text, mem_optional_mul.2 (.inl (mem_exactly_mul.2 ⟨text, rfl, htext⟩)), after, rfl, rfl⟩
    · rw [hbytes] at hsize
      obtain ⟨inner, hinner, rfl⟩ := Option.map_eq_some_iff.1 hsize
      obtain ⟨text, htext, after, rfl, rfl⟩ := h.mem hinner
      exact ⟨'b' :: mark :: text, mem_optional_mul.2 (.inr (mem_exactly_mul.2 ⟨mark :: text, rfl,
        mem_exactly_mul.2 ⟨text, rfl, htext⟩⟩)), after, rfl, rfl⟩
  longest := by
    intro text rest htext
    rcases mem_optional_mul.1 htext with hplainMark | hbyteMark
    · obtain ⟨inner, rfl, hinner⟩ := mem_exactly_mul.1 hplainMark
      obtain ⟨size, hsize, hlong⟩ := h.longest rest hinner
      refine ⟨size + 1, ?_, Nat.succ_le_succ hlong⟩
      show other? (mark :: (inner ++ rest)) = _
      rw [hplain, hsize]
      rfl
    · obtain ⟨markedText, rfl, hmarkedText⟩ := mem_exactly_mul.1 hbyteMark
      obtain ⟨inner, rfl, hinner⟩ := mem_exactly_mul.1 hmarkedText
      obtain ⟨size, hsize, hlong⟩ := h.longest rest hinner
      refine ⟨size + 2, ?_, Nat.succ_le_succ (Nat.succ_le_succ hlong)⟩
      show other? ('b' :: mark :: (inner ++ rest)) = _
      rw [hbytes, hsize]
      rfl

/-- Two alternatives of which the second fits nowhere that the first does. -/
theorem Measures.or (h : Measures length? language) (hother : Measures other? other)
    (halone : ∀ {cs size}, length? cs = some size → other? cs = none) :
    Measures (fun cs => (length? cs).or (other? cs)) (language + other) where
  mem := by
    intro cs size hsize
    rcases Option.or_eq_some_iff.1 hsize with hfirst | ⟨-, hsecond⟩
    · obtain ⟨text, htext, after⟩ := h.mem hfirst
      exact ⟨text, .inl htext, after⟩
    · obtain ⟨text, htext, after⟩ := hother.mem hsecond
      exact ⟨text, .inr htext, after⟩
  longest := by
    rintro text rest (htext | htext)
    · obtain ⟨size, hsize, hlong⟩ := h.longest rest htext
      exact ⟨size, by rw [hsize, Option.some_or], hlong⟩
    · obtain ⟨size, hsize, hlong⟩ := hother.longest rest htext
      refine ⟨size, ?_, hlong⟩
      cases hfirst : length? (text ++ rest) with
      | none => rw [Option.none_or, hsize]
      | some first =>
        rw [halone hfirst] at hsize
        exact absurd hsize (by simp)

theorem measures_lifetime : Measures lifetimeLength? (Token.Kind.pattern .lifetime) := by
  refine Measures.marked measures_name ?_ ?_
  · intro rest
    cases rest with
    | nil => rfl
    | cons c rest =>
      rw [lifetimeLength?, nameLength?]
      split
      · rw [Option.map_some, Nat.add_right_comm]
      · rfl
  · intro cs size h
    unfold lifetimeLength? at h
    split at h
    · exact ⟨_, rfl⟩
    · exact absurd h (by simp)

theorem drop_wordLength (cs : List Char) : cs.drop (wordLength cs) = cs.dropWhile isWord := by
  have hleft : cs.drop (wordLength cs) = (cs.takeWhile isWord ++ cs.dropWhile isWord).drop (wordLength cs) := by
    rw [List.takeWhile_append_dropWhile]
  rw [hleft, wordLength, List.drop_left]

theorem measures_number : Measures numberLength? (Token.Kind.pattern .number) where
  mem := by
    intro cs size h
    unfold numberLength? at h
    split at h
    · rename_i c rest
      split at h
      · rename_i hdigit
        have hin {tail : List Char} (htail : tail ∈ 1 + exactly ['.'] * (one isDecimal * (one isWord)∗)) :
            c :: (rest.takeWhile isWord ++ tail) ∈ Token.Kind.pattern .number :=
          mem_one_mul.2 ⟨c, _, rfl, hdigit, Language.append_mem_mul (takeWhile_mem_many isWord rest) htail⟩
        have hplain : ∃ text ∈ Token.Kind.pattern .number, ∃ after, c :: rest = text ++ after ∧
            text.length = 1 + wordLength rest := by
          refine ⟨_, hin (.inl rfl), rest.dropWhile isWord, ?_, ?_⟩
          · rw [List.append_nil, List.cons_append, List.takeWhile_append_dropWhile]
          · rw [List.append_nil, List.length_cons, Nat.add_comm, wordLength]
        dsimp only at h
        split at h
        · rename_i d fraction hdrop
          split at h
          · rename_i hnext
            obtain rfl := Option.some.inj h
            refine ⟨_, hin (.inr (mem_exactly_mul.2 ⟨_, rfl, mem_one_mul.2 ⟨d, _, rfl, hnext,
              takeWhile_mem_many isWord fraction⟩⟩)), fraction.dropWhile isWord, ?_, ?_⟩
            · rw [drop_wordLength] at hdrop
              conv_lhs => rw [← List.takeWhile_append_dropWhile (p := isWord) (l := rest), hdrop,
                ← List.takeWhile_append_dropWhile (p := isWord) (l := fraction)]
              simp
            · simp only [List.length_cons, List.length_append, List.length_nil, wordLength]
              omega
          · exact Option.some.inj h ▸ hplain
        · exact Option.some.inj h ▸ hplain
      · exact absurd h (by simp)
    · exact absurd h (by simp)
  longest := by
    intro text rest htext
    obtain ⟨c, more, rfl, hdigit, hmore⟩ := mem_one_mul.1 htext
    obtain ⟨word, hword, tail, htail, rfl⟩ := Language.mem_mul.1 hmore
    have hlength := wordLength_append (mem_many.1 hword)
    rw [List.cons_append, List.append_assoc, numberLength?, if_pos hdigit]
    dsimp only
    rcases htail with rfl | hfraction
    · rw [List.nil_append, hlength]
      split
      · split
        · exact ⟨_, rfl, by simp; omega⟩
        · exact ⟨_, rfl, by simp; omega⟩
      · exact ⟨_, rfl, by simp; omega⟩
    · obtain ⟨digits, rfl, hdigits⟩ := mem_exactly_mul.1 hfraction
      obtain ⟨d, fraction, rfl, hnext, hfraction⟩ := mem_one_mul.1 hdigits
      rw [show ['.'] ++ d :: fraction ++ rest = '.' :: d :: (fraction ++ rest) from rfl, drop_wordLength,
        List.dropWhile_append_of_pos (mem_many.1 hword), List.dropWhile_cons_of_neg (by decide)]
      refine ⟨_, if_pos hnext, ?_⟩
      · rw [hlength, wordLength_append (mem_many.1 hfraction)]
        simp only [List.length_cons, List.length_append, List.length_nil]
        omega

end Lexeme

end FfiBindings.Rust
