import FfiBindings.Proofs.Rust.LineJoin

/-!
Literals as they are written. A syntax tree of a literal (`Literal`) holds what its characters have to fulfil, so every
tree is the tree of a literal: a raw string whose content does not close it, a string of escapes and plain characters, a
character or an escape between apostrophes. Its text is one token, whatever stands in it and whatever comes behind it
(`tokensFrom_literal`), and what comes behind it on the next line is cut as if it stood alone (`tokens_literal`).
-/

set_option autoImplicit false
set_option relaxedAutoImplicit false

namespace FfiBindings.Rust

open Text Pattern Lexeme
open scoped Computability

/-! ### Syntax trees -/

/-- What stands for one character of a string. -/
inductive StringPart where
  | escape (c : Char)
  | plain (c : Char) (h : c ≠ '"' ∧ c ≠ '\\')

namespace StringPart

def chars : StringPart → List Char
  | .escape c => ['\\', c]
  | .plain c _ => [c]

theorem chars_mem (part : StringPart) : part.chars ∈ quotedPart := by
  cases part with
  | escape c => exact .inl (mem_exactly_mul.2 ⟨[c], rfl, c, rfl, rfl⟩)
  | plain c h => exact .inr ⟨c, by simpa using h, rfl⟩

end StringPart

/-- What stands for the character of a character literal. -/
inductive CharPart where
  | code (digits : List Char) (hasDigit : digits ≠ []) (h : ∀ c ∈ digits, isHexDigit c = true)
  | byte (high low : Char) (h : isHexDigit high = true ∧ isHexDigit low = true)
  | escape (c : Char)
  | plain (c : Char) (h : c ≠ '\\' ∧ c ≠ '\'' ∧ c ≠ '\n')

namespace CharPart

def chars : CharPart → List Char
  | .code digits _ _ => ['\\', 'u', '\x7b'] ++ digits ++ ['\x7d']
  | .byte high low _ => ['\\', 'x', high, low]
  | .escape c => ['\\', c]
  | .plain c _ => [c]

theorem chars_mem (part : CharPart) : part.chars ∈ charPart := by
  cases part with
  | code digits hasDigit h =>
    exact .inl (.inl (.inl (Language.append_mem_mul (Language.append_mem_mul rfl (mem_run.2 ⟨hasDigit, h⟩)) rfl)))
  | byte high low h =>
    have hhigh : ['\\', 'x'] ++ [high] ∈ exactly ['\\', 'x'] * one isHexDigit :=
      Language.append_mem_mul rfl ⟨high, h.1, rfl⟩
    exact .inl (.inl (.inr (Language.append_mem_mul hhigh ⟨low, h.2, rfl⟩)))
  | escape c => exact .inl (.inr (mem_exactly_mul.2 ⟨[c], rfl, c, rfl, rfl⟩))
  | plain c h => exact .inr ⟨c, by simpa [and_assoc] using h, rfl⟩

end CharPart

/-- A raw string, a string or a character, each of which may be one of bytes. -/
inductive Literal where
  | raw (ofBytes : Bool) (hashes : Nat) (content : List Char)
      (h : ¬('"' :: List.replicate hashes '#') <:+: content)
  | string (ofBytes : Bool) (parts : List StringPart)
  | char (ofBytes : Bool) (part : CharPart)

namespace Literal

/-- The letter in front of a literal of bytes. -/
def letters (ofBytes : Bool) : List Char :=
  if ofBytes then ['b'] else []

def chars : Literal → List Char
  | .raw ofBytes hashes content _ => letters ofBytes ++ 'r' ::
      (List.replicate hashes '#' ++ '"' :: (content ++ '"' :: List.replicate hashes '#'))
  | .string ofBytes parts => letters ofBytes ++ '"' :: (parts.flatMap StringPart.chars ++ ['"'])
  | .char ofBytes part => letters ofBytes ++ '\'' :: (part.chars ++ ['\''])

def text (literal : Literal) : String :=
  .ofList literal.chars

def kind : Literal → Token.Kind
  | .raw .. | .string .. => .string
  | .char .. => .char

variable {mark : Char} {inner : List Char} {language : Language Char}

theorem letters_mem (ofBytes : Bool) (h : inner ∈ language) :
    letters ofBytes ++ mark :: inner ∈ (1 + exactly ['b']) * (exactly [mark] * language) := by
  have hmarked : mark :: inner ∈ exactly [mark] * language := mem_exactly_mul.2 ⟨inner, rfl, h⟩
  cases ofBytes with
  | false => exact mem_optional_mul.2 (.inl hmarked)
  | true => exact mem_optional_mul.2 (.inr (mem_exactly_mul.2 ⟨_, rfl, hmarked⟩))

/-- The text of a literal is one of its kind. -/
theorem chars_mem (literal : Literal) : literal.chars ∈ literal.kind.pattern := by
  cases literal with
  | raw ofBytes hashes content h => exact .inl (letters_mem ofBytes ⟨hashes, content, rfl, h⟩)
  | string ofBytes parts =>
    refine .inr (letters_mem ofBytes (Language.append_mem_mul ?_ rfl))
    refine Language.mem_kstar.2 ⟨parts.map StringPart.chars, rfl, ?_⟩
    intro chars hchars
    obtain ⟨part, -, rfl⟩ := List.mem_map.1 hchars
    exact part.chars_mem
  | char ofBytes part => exact letters_mem ofBytes (Language.append_mem_mul part.chars_mem rfl)

/-- A literal begins with one of its letters or with a quote. -/
theorem exists_chars_eq (literal : Literal) :
    ∃ c inner, literal.chars = c :: inner ∧ c ∈ ['b', 'r', '"', '\''] := by
  cases literal with
  | raw ofBytes => cases ofBytes <;> exact ⟨_, _, rfl, by decide⟩
  | string ofBytes => cases ofBytes <;> exact ⟨_, _, rfl, by decide⟩
  | char ofBytes => cases ofBytes <;> exact ⟨_, _, rfl, by decide⟩

/-- Literals are tried before names and marks, and each is taken to its end. -/
theorem literalOrName?_chars (literal : Literal) (rest : List Char) :
    literalOrName? (literal.chars ++ rest) = some (literal.kind, literal.chars.length) := by
  have hmem := literal.chars_mem
  cases literal with
  | raw ofBytes hashes content h =>
    have hstring := delimits_string _ hmem rest
    simp only [literalOrName?, hstring, Option.map_some, Option.some_or, kind]
  | string ofBytes parts =>
    have hstring := delimits_string _ hmem rest
    simp only [literalOrName?, hstring, Option.map_some, Option.some_or, kind]
  | char ofBytes part =>
    have hchar := delimits_char _ hmem rest
    have hstring : stringLength? ((char ofBytes part).chars ++ rest) = none := by cases ofBytes <;> rfl
    simp only [literalOrName?, hstring, hchar, Option.map_some, Option.map_none, Option.none_or, Option.some_or, kind]

end Literal

/-! ### One token -/

/-- The first token of a text that begins with a literal is the literal, and the rest is cut behind it. -/
theorem tokensFrom_literal (line : Nat) (literal : Literal) (rest : List Char) :
    tokensFrom line (literal.chars ++ rest) =
      (tokensFrom (line + literal.chars.count '\n') rest).map (⟨literal.kind, literal.text, line⟩ :: ·) := by
  have hread := literal.literalOrName?_chars rest
  obtain ⟨c, inner, hchars, hc⟩ := literal.exists_chars_eq
  have hnot : isBlank c = false ∧ '/' ≠ c := by
    simp only [List.mem_cons, List.not_mem_nil, or_false] at hc
    rcases hc with rfl | rfl | rfl | rfl <;> exact ⟨by decide, by decide⟩
  obtain ⟨hblank, hslash⟩ := hnot
  have hfirst : first c (inner ++ rest) = .ok (.token literal.kind, inner.length + 1) := by
    rw [hchars, List.cons_append, List.length_cons] at hread
    simp [first, hread, hblank, hslash]
  have hheads := heads_of_first hfirst
  rw [Nat.add_sub_cancel, List.take_left, List.drop_left, ← hchars] at hheads
  exact tokensFrom_of_heads line hheads

/-- A literal is one token with all that it holds, and what follows on the next line is cut as if it stood alone, moved
down by the lines of the literal; so is an error in it. -/
theorem tokens_literal (literal : Literal) (rest : String) :
    ((∃ written, tokens (literal.text ++ "\n" ++ rest) = .ok written) ↔ ∃ later, tokens rest = .ok later) ∧
      (∀ later, tokens rest = .ok later → tokens (literal.text ++ "\n" ++ rest) =
        .ok (⟨literal.kind, literal.text, 1⟩ ::
          later.map (Token.below (1 + literal.text.toList.count '\n')))) ∧
      ∀ error, tokens rest = .error error → tokens (literal.text ++ "\n" ++ rest) =
        .error (error.below (1 + literal.text.toList.count '\n')) := by
  have hlists : (literal.text ++ "\n" ++ rest).toList = literal.chars ++ '\n' :: rest.toList := by
    rw [String.toList_append, String.toList_append, List.append_assoc, Literal.text, String.toList_ofList]
    rfl
  have hread : tokens (literal.text ++ "\n" ++ rest) =
      (below (1 + literal.text.toList.count '\n') (tokens rest)).map ([⟨literal.kind, literal.text, 1⟩] ++ ·) := by
    rw [tokens_eq, hlists, tokensFrom_literal, tokensFrom_lineFeed, Nat.add_assoc, Nat.add_comm _ 1, tokensFrom_below,
      Literal.text, String.toList_ofList]
    rfl
  exact outcomes_of_eq_below hread

end FfiBindings.Rust
