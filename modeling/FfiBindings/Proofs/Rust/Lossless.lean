import FfiBindings.Proofs.Rust.Literal

/-!
The lexer against its patterns. A block comment ends where the markers in it leave no comment open (`ClosesAll`). Each
alternative measures its language (`measures_length`), and the first in their order that fits is taken (`first_eq`). So
at every place of a source a text of that alternative stands and is taken as far as it goes, or nothing fits and the
source has an open comment or an open literal there (`first_cases`).
So the pieces of a source leave nothing out, and the line of a token is told by what stands before it
(`tokens_lossless`).
-/

set_option autoImplicit false
set_option relaxedAutoImplicit false

namespace FfiBindings.Rust

open Text Pattern
open scoped Computability

namespace Lexeme

variable {text cs : List Char} {size : Nat}

/-! ### Comments -/

theorem commentBalance_nil : commentBalance [] = 0 := rfl

theorem commentBalance_opening (rest : List Char) : commentBalance ('/' :: '*' :: rest) = commentBalance rest + 1 := rfl

theorem commentBalance_closing (rest : List Char) : commentBalance ('*' :: '/' :: rest) = commentBalance rest - 1 := rfl

theorem commentBalance_cons {c : Char} (hopen : ∀ rest, c = '/' → cs = '*' :: rest → False)
    (hclose : ∀ rest, c = '*' → cs = '/' :: rest → False) : commentBalance (c :: cs) = commentBalance cs :=
  commentBalance.eq_3 c cs hopen hclose

theorem commentBalance_singleton (c : Char) : commentBalance [c] = 0 :=
  commentBalance_cons (by simp) (by simp)

/-- A text that closes this many comments, and no shorter one does that begins it. -/
def ClosesAll (depth : Nat) (text : List Char) : Prop :=
  depth + commentBalance text = 0 ∧
    ∀ front, front <+: text → front ≠ text → depth + commentBalance front ≠ 0

theorem closesAll_zero : ClosesAll 0 text ↔ text = [] := by
  constructor
  · intro h
    by_contra hne
    exact h.2 [] List.nil_prefix (Ne.symm hne) rfl
  · rintro rfl
    exact ⟨rfl, fun front hfront hne => absurd (List.prefix_nil.1 hfront) hne⟩

theorem not_closesAll_nil {depth : Nat} (hdepth : 0 < depth) : ¬ClosesAll depth [] := by
  rintro ⟨hbalance, -⟩
  rw [commentBalance_nil] at hbalance
  omega

/-- A marker of two characters leaves another number of comments open. -/
theorem closesAll_marker {first second : Char} {depth after : Nat} (hdepth : 0 < depth)
    (hmarker : ∀ text, depth + commentBalance (first :: second :: text) = after + commentBalance text) :
    ClosesAll depth (first :: second :: text) ↔ ClosesAll after text := by
  constructor
  · rintro ⟨hbalance, hopen⟩
    refine ⟨by rwa [hmarker] at hbalance, ?_⟩
    intro front hfront hne
    rw [← hmarker]
    refine hopen _ ?_ (by simpa using hne)
    exact List.cons_prefix_cons.2 ⟨rfl, List.cons_prefix_cons.2 ⟨rfl, hfront⟩⟩
  · rintro ⟨hbalance, hopen⟩
    refine ⟨by rwa [hmarker], ?_⟩
    intro front hfront hne
    match front, hfront, hne with
    | [], _, _ =>
      rw [commentBalance_nil]
      omega
    | [c], _, _ =>
      rw [commentBalance_singleton]
      omega
    | c :: d :: front, hfront, hne =>
      obtain ⟨rfl, hsecond⟩ := List.cons_prefix_cons.1 hfront
      obtain ⟨rfl, hinner⟩ := List.cons_prefix_cons.1 hsecond
      rw [hmarker]
      exact hopen front hinner (by simpa using hne)

theorem closesAll_opening {depth : Nat} (hdepth : 0 < depth) :
    ClosesAll depth ('/' :: '*' :: text) ↔ ClosesAll (depth + 1) text := by
  refine closesAll_marker hdepth fun text => ?_
  rw [commentBalance_opening]
  omega

theorem closesAll_closing {depth : Nat} (hdepth : 0 < depth) :
    ClosesAll depth ('*' :: '/' :: text) ↔ ClosesAll (depth - 1) text := by
  refine closesAll_marker hdepth fun text => ?_
  rw [commentBalance_closing]
  omega

/-- A character that begins no marker leaves as many comments open as there were. -/
theorem closesAll_cons {c : Char} {depth : Nat} (hdepth : 0 < depth)
    (hopen : ∀ rest, c = '/' → text = '*' :: rest → False)
    (hclose : ∀ rest, c = '*' → text = '/' :: rest → False) : ClosesAll depth (c :: text) ↔ ClosesAll depth text := by
  have hfront {front : List Char} (hfront : front <+: text) : commentBalance (c :: front) = commentBalance front := by
    obtain ⟨back, rfl⟩ := hfront
    refine commentBalance_cons ?_ ?_
    · rintro rest hc rfl
      exact hopen _ hc rfl
    · rintro rest hc rfl
      exact hclose _ hc rfl
  constructor
  · rintro ⟨hbalance, hall⟩
    refine ⟨by rwa [hfront List.prefix_rfl] at hbalance, ?_⟩
    intro front hprefix hne
    rw [← hfront hprefix]
    exact hall _ (List.cons_prefix_cons.2 ⟨rfl, hprefix⟩) (by simpa using hne)
  · rintro ⟨hbalance, hall⟩
    refine ⟨by rwa [hfront List.prefix_rfl], ?_⟩
    intro front hprefix hne
    cases front with
    | nil =>
      rw [commentBalance_nil]
      omega
    | cons d front =>
      obtain ⟨rfl, hinner⟩ := List.cons_prefix_cons.1 hprefix
      rw [hfront hinner]
      exact hall front hinner (by simpa using hne)

theorem mem_blockComment_iff :
    text ∈ blockComment.language ↔ ∃ tail, text = '/' :: '*' :: tail ∧ ClosesAll 1 tail := by
  have hbalance (tail : List Char) : commentBalance ('/' :: '*' :: tail) = 1 + commentBalance tail := by
    rw [commentBalance_opening, Int.add_comm]
  constructor
  · rintro ⟨⟨tail, rfl⟩, hclosed, hopen⟩
    refine ⟨tail, rfl, (hbalance tail).symm.trans hclosed, ?_⟩
    intro front hfront hne
    refine fun hzero => hopen ('/' :: '*' :: front) ⟨front, rfl⟩ ?_ (by simpa using hne) ((hbalance front).trans hzero)
    exact List.cons_prefix_cons.2 ⟨rfl, List.cons_prefix_cons.2 ⟨rfl, hfront⟩⟩
  · rintro ⟨tail, rfl, hclosed, hopen⟩
    refine ⟨⟨tail, rfl⟩, (hbalance tail).trans hclosed, ?_⟩
    rintro _ ⟨front, rfl⟩ hfront hne
    have hprefix := (List.cons_prefix_cons.1 (List.cons_prefix_cons.1 hfront).2).2
    exact fun hzero => hopen front hprefix (by simpa using hne) ((hbalance front).symm.trans hzero)

theorem exists_of_blockCommentLength? {depth : Nat} (hdepth : 0 < depth)
    (h : blockCommentLength? depth cs = some size) :
    ∃ text rest, cs = text ++ rest ∧ text.length = size ∧ ClosesAll depth text := by
  fun_induction blockCommentLength? depth cs generalizing size with
  | case1 depth rest ih =>
    obtain ⟨inner, hinner, rfl⟩ := Option.map_eq_some_iff.1 h
    obtain ⟨text, after, rfl, rfl, hcloses⟩ := ih (by omega) hinner
    exact ⟨'/' :: '*' :: text, after, rfl, rfl, (closesAll_opening hdepth).2 hcloses⟩
  | case2 depth rest hlast =>
    obtain rfl := Option.some.inj h
    refine ⟨['*', '/'], rest, rfl, rfl, (closesAll_closing hdepth).2 ?_⟩
    rw [Nat.sub_eq_zero_of_le hlast]
    exact closesAll_zero.2 rfl
  | case3 depth rest hdeep ih =>
    obtain ⟨inner, hinner, rfl⟩ := Option.map_eq_some_iff.1 h
    obtain ⟨text, after, rfl, rfl, hcloses⟩ := ih (by omega) hinner
    exact ⟨'*' :: '/' :: text, after, rfl, rfl, (closesAll_closing hdepth).2 hcloses⟩
  | case4 depth c rest hopen hclose ih =>
    obtain ⟨inner, hinner, rfl⟩ := Option.map_eq_some_iff.1 h
    obtain ⟨text, after, rfl, rfl, hcloses⟩ := ih hdepth hinner
    refine ⟨c :: text, after, rfl, rfl, (closesAll_cons hdepth ?_ ?_).2 hcloses⟩
    · rintro rest hc rfl
      exact hopen _ hc rfl
    · rintro rest hc rfl
      exact hclose _ hc rfl
  | case5 => exact absurd h (by simp)

theorem blockCommentLength?_append {depth : Nat} (hdepth : 0 < depth) (h : ClosesAll depth text)
    (rest : List Char) : blockCommentLength? depth (text ++ rest) = some text.length := by
  fun_induction commentBalance text generalizing depth with
  | case1 text ih =>
    have hlater := ih (Nat.succ_pos depth) ((closesAll_opening hdepth).1 h)
    rw [List.cons_append, List.cons_append, blockCommentLength?, hlater, Option.map_some]
    rfl
  | case2 text ih =>
    rw [List.cons_append, List.cons_append, blockCommentLength?]
    have hcloses := (closesAll_closing hdepth).1 h
    split
    · rename_i hlast
      rw [Nat.sub_eq_zero_of_le hlast, closesAll_zero] at hcloses
      rw [hcloses]
      rfl
    · rename_i hdeep
      rw [ih (by omega) hcloses, Option.map_some]
      rfl
  | case3 c text hopening hclosing ih =>
    have hcloses := (closesAll_cons hdepth hopening hclosing).1 h
    have hne : text ≠ [] := by
      rintro rfl
      exact not_closesAll_nil hdepth hcloses
    obtain ⟨d, text, rfl⟩ := List.exists_cons_of_ne_nil hne
    rw [List.cons_append, blockCommentLength?.eq_3, ih hdepth hcloses, Option.map_some]
    · rfl
    · rintro after hc htext
      exact hopening text hc (by rw [(List.cons.inj htext).1])
    · rintro after hc htext
      exact hclosing text hc (by rw [(List.cons.inj htext).1])
  | case4 => exact absurd h (not_closesAll_nil hdepth)

/-- The length of a block comment, for a text that begins with one. -/
def commentLength? (cs : List Char) : Option Nat :=
  if ['/', '*'].isPrefixOf cs then blockCommentLength? 0 cs else none

theorem delimits_blockComment : Delimits commentLength? blockComment.language := by
  intro text htext rest
  obtain ⟨tail, rfl, hcloses⟩ := mem_blockComment_iff.1 htext
  show (blockCommentLength? 1 (tail ++ rest)).map (· + 2) = _
  rw [blockCommentLength?_append Nat.one_pos hcloses, Option.map_some]
  rfl

theorem measures_blockComment : Measures commentLength? blockComment.language where
  mem := by
    intro cs size h
    unfold commentLength? at h
    split at h
    · rename_i hmarker
      obtain ⟨tail, rfl⟩ := List.isPrefixOf_iff_prefix.1 hmarker
      obtain ⟨inner, hinner, rfl⟩ := Option.map_eq_some_iff.1 h
      obtain ⟨text, rest, rfl, rfl, hcloses⟩ := exists_of_blockCommentLength? Nat.one_pos hinner
      exact ⟨'/' :: '*' :: text, mem_blockComment_iff.2 ⟨text, rfl, hcloses⟩, rest, rfl, rfl⟩
    · exact absurd h (by simp)
  longest := Delimits.longest delimits_blockComment

/-! ### Blanks, line comments and punctuation -/

theorem length_le_takeWhile {p : Char → Bool} (h : ∀ c ∈ text, p c = true) (rest : List Char) :
    text.length ≤ ((text ++ rest).takeWhile p).length := by
  rw [List.takeWhile_append_of_pos h, List.length_append]
  exact Nat.le_add_right _ _

/-- The length of the blanks that a text begins with. -/
def blanksLength? : List Char → Option Nat
  | c :: rest => if isBlank c then some ((c :: rest).takeWhile isBlank).length else none
  | [] => none

theorem measures_blanks : Measures blanksLength? blanks.language where
  mem := by
    intro cs size h
    unfold blanksLength? at h
    split at h
    · rename_i c rest
      split at h
      · rename_i hblank
        obtain rfl := Option.some.inj h
        refine ⟨_, mem_run.2 ⟨?_, ?_⟩, (c :: rest).dropWhile isBlank, List.takeWhile_append_dropWhile.symm, rfl⟩
        · rw [List.takeWhile_cons_of_pos hblank]
          exact List.cons_ne_nil _ _
        · exact fun d hd => List.all_eq_true.1 List.all_takeWhile d hd
      · exact absurd h (by simp)
    · exact absurd h (by simp)
  longest := by
    intro text rest htext
    have hall := (mem_run.1 htext).2
    obtain ⟨c, more, rfl, hblank, -⟩ := mem_one_mul.1 htext
    exact ⟨_, if_pos hblank, length_le_takeWhile hall rest⟩

/-- The length of the line comment that a text begins with. -/
def lineCommentLength? (cs : List Char) : Option Nat :=
  if ['/', '/'].isPrefixOf cs then some (cs.takeWhile (· != '\n')).length else none

theorem measures_lineComment : Measures lineCommentLength? lineComment.language where
  mem := by
    intro cs size h
    unfold lineCommentLength? at h
    split at h
    · rename_i hmarker
      obtain rfl := Option.some.inj h
      obtain ⟨tail, rfl⟩ := List.isPrefixOf_iff_prefix.1 hmarker
      refine ⟨_, mem_exactly_mul.2 ⟨_, rfl, takeWhile_mem_many (· != '\n') tail⟩, tail.dropWhile (· != '\n'), ?_, rfl⟩
      rw [List.append_assoc, List.takeWhile_append_dropWhile]
    · exact absurd h (by simp)
  longest := by
    intro text rest htext
    obtain ⟨tail, rfl, htail⟩ := mem_exactly_mul.1 htext
    refine ⟨_, if_pos ?_, length_le_takeWhile ?_ rest⟩
    · rw [List.isPrefixOf_iff_prefix]
      exact ⟨tail ++ rest, rfl⟩
    · refine List.forall_mem_cons.2 ⟨rfl, List.forall_mem_cons.2 ⟨rfl, mem_many.1 htail⟩⟩

/-- The characters that stand for themselves. -/
def isMark (c : Char) : Bool :=
  !isBlank c && !isWord c && c != '"' && c != '\''

/-- The length of the punctuation that a text begins with. -/
def markLength? : List Char → Option Nat
  | c :: rest => if isMark c then some (punctLength (c :: rest)) else none
  | [] => none

theorem measures_punct : Measures markLength? (Token.Kind.pattern .punct) where
  mem := by
    intro cs size h
    unfold markLength? at h
    split at h
    · rename_i c rest
      split at h
      · rename_i hmark
        obtain rfl := Option.some.inj h
        generalize htext : c :: rest = text
        unfold punctLength
        split
        · exact ⟨[':', ':'], .inl (.inl (.inl (.inl (.inl (.inl rfl))))), _, rfl, rfl⟩
        · exact ⟨['-', '>'], .inl (.inl (.inl (.inl (.inl (.inr rfl))))), _, rfl, rfl⟩
        · exact ⟨['=', '>'], .inl (.inl (.inl (.inl (.inr rfl)))), _, rfl, rfl⟩
        · exact ⟨['.', '.', '='], .inl (.inl (.inl (.inr rfl))), _, rfl, rfl⟩
        · exact ⟨['.', '.', '.'], .inl (.inl (.inr rfl)), _, rfl, rfl⟩
        · exact ⟨['.', '.'], .inl (.inr rfl), _, rfl, rfl⟩
        · exact ⟨[c], .inr ⟨c, hmark, rfl⟩, rest, htext.symm, rfl⟩
      · exact absurd h (by simp)
    · exact absurd h (by simp)
  longest := by
    rintro text rest ((((((rfl | rfl) | rfl) | rfl) | rfl) | rfl) | ⟨c, hmark, rfl⟩)
    · exact ⟨2, rfl, le_rfl⟩
    · exact ⟨2, rfl, le_rfl⟩
    · exact ⟨2, rfl, le_rfl⟩
    · exact ⟨3, rfl, le_rfl⟩
    · exact ⟨3, rfl, le_rfl⟩
    · refine ⟨_, rfl, ?_⟩
      show 2 ≤ punctLength ('.' :: '.' :: rest)
      unfold punctLength
      split
      · exact le_rfl
      · exact le_rfl
      · exact le_rfl
      · exact Nat.le_succ 2
      · exact Nat.le_succ 2
      · exact le_rfl
      · rename_i hpoints
        exact absurd rfl (hpoints rest)
    · refine ⟨_, if_pos hmark, ?_⟩
      rw [List.length_singleton]
      unfold punctLength
      split <;> omega

/-! ### The first alternative that fits -/

/-- The alternatives in the order in which they are tried. -/
def precedence : List Lexeme :=
  [.blockComment, .blanks, .lineComment, .token .string, .token .char, .token .lifetime, .token .ident,
    .token .number, .token .punct]

def length? : Lexeme → List Char → Option Nat
  | .blockComment => commentLength?
  | .blanks => blanksLength?
  | .lineComment => lineCommentLength?
  | .token .string => stringLength?
  | .token .char => charLength?
  | .token .lifetime => lifetimeLength?
  | .token .ident => identLength?
  | .token .number => numberLength?
  | .token .punct => markLength?

theorem measures_length (lexeme : Lexeme) : Measures lexeme.length? lexeme.language := by
  cases lexeme with
  | blockComment => exact measures_blockComment
  | blanks => exact measures_blanks
  | lineComment => exact measures_lineComment
  | token kind =>
    cases kind with
    | string => exact measures_string
    | char => exact measures_char
    | lifetime => exact measures_lifetime
    | ident => exact measures_ident
    | number => exact measures_number
    | punct => exact measures_punct

/-- The lexeme and the text of it that the alternatives take from the beginning of a source: no alternative before it
fits, and of its own texts this is the longest that does. -/
structure Heads (lexeme : Lexeme) (text rest : List Char) : Prop where
  nonempty : text ≠ []
  mem : text ∈ lexeme.language
  longest : ∀ other ∈ lexeme.language, other <+: text ++ rest → other.length ≤ text.length
  earliest : ∀ earlier ∈ precedence.takeWhile (· != lexeme), ∀ other ∈ earlier.language, ¬other <+: text ++ rest
  closed : lexeme ≠ .blockComment → ¬['/', '*'] <+: text ++ rest

/-- The texts that no lexeme begins: a block comment without an end, or a quote that begins no literal. -/
def Stuck (cs : List Char) : Flaw → Prop
  | .openComment => ['/', '*'] <+: cs ∧ ∀ text ∈ blockComment.language, ¬text <+: cs
  | .openLiteral =>
    (∃ rest, cs = '"' :: rest ∨ cs = '\'' :: rest) ∧ ∀ lexeme : Lexeme, ∀ text ∈ lexeme.language, ¬text <+: cs
  | _ => False

theorem nonempty_of_mem_language {lexeme : Lexeme} (h : text ∈ lexeme.language) : text ≠ [] := by
  rintro rfl
  have hnone : lexeme.length? [] = none := by
    cases lexeme with
    | token kind => cases kind <;> rfl
    | _ => rfl
  exact (measures_length lexeme).not_startsWith hnone [] h List.nil_prefix

/-- A character that begins no name, no number and no literal stands for itself. -/
theorem isWord_of_no_name {c : Char} {rest : List Char} (hname : identLength? (c :: rest) = none)
    (hnumber : numberLength? (c :: rest) = none) : isWord c = false := by
  by_contra hword
  rw [Bool.not_eq_false] at hword
  cases hdigit : isDecimal c with
  | true =>
    refine measures_number.not_startsWith hnumber [c] (mem_one_mul.2 ⟨c, [], rfl, hdigit, ?_⟩) ⟨rest, rfl⟩
    exact Language.append_mem_mul (Language.nil_mem_kstar _) (.inl rfl)
  | false =>
    have hstart : isWordStart c = true := by rw [isWordStart, hword, hdigit, Bool.not_false, Bool.and_self]
    refine measures_ident.not_startsWith hname [c] (mem_optional_mul.2 (.inl ?_)) ⟨rest, rfl⟩
    exact mem_one_mul.2 ⟨c, [], rfl, hstart, Language.nil_mem_kstar _⟩

theorem exists_heads {lexeme : Lexeme} (hsize : lexeme.length? cs = some size)
    (hearlier : ∀ earlier ∈ precedence.takeWhile (· != lexeme), earlier.length? cs = none)
    (hclosed : lexeme ≠ .blockComment → ¬['/', '*'] <+: cs) :
    ∃ text after, cs = text ++ after ∧ size = text.length ∧ Heads lexeme text after := by
  obtain ⟨text, htext, after, rfl, rfl⟩ := (measures_length lexeme).mem hsize
  refine ⟨text, after, rfl, rfl, nonempty_of_mem_language htext, htext, ?_, ?_, hclosed⟩
  · rintro other hother ⟨rest, hrest⟩
    obtain ⟨longest, hlongest, hle⟩ := (measures_length lexeme).longest rest hother
    rw [hrest, hsize] at hlongest
    exact Option.some.inj hlongest ▸ hle
  · intro earlier hmem
    exact (measures_length earlier).not_startsWith (hearlier earlier hmem)

/-- What an alternative takes from the beginning of a text, and how much. -/
def attempt? (cs : List Char) (lexeme : Lexeme) : Option (Lexeme × Nat) :=
  (lexeme.length? cs).map (lexeme, ·)

theorem attempt?_eq_some_iff {lexeme found : Lexeme} :
    attempt? cs lexeme = some (found, size) ↔ found = lexeme ∧ lexeme.length? cs = some size := by
  simp only [attempt?, Option.map_eq_some_iff, Prod.mk.injEq]
  constructor
  · rintro ⟨_, hsize, rfl, rfl⟩
    exact ⟨rfl, hsize⟩
  · rintro ⟨rfl, hsize⟩
    exact ⟨size, hsize, rfl, rfl⟩

/-- The alternatives with a variable length. -/
def literalsAndNames : List Lexeme :=
  [.token .string, .token .char, .token .lifetime, .token .ident, .token .number]

theorem map_literalOrName? (cs : List Char) :
    (literalOrName? cs).map (fun found => (Lexeme.token found.1, found.2)) =
      literalsAndNames.findSome? (attempt? cs) := by
  simp only [literalOrName?, literalsAndNames, List.findSome?_cons, List.findSome?_nil, attempt?, length?]
  cases stringLength? cs <;> cases charLength? cs <;> cases lifetimeLength? cs <;> cases identLength? cs <;>
    cases numberLength? cs <;> rfl

/-- What begins no name and no number is a mark or a quote. -/
theorem isMark_iff_of_no_name {c : Char} {rest : List Char} (hblank : isBlank c = false)
    (hname : identLength? (c :: rest) = none) (hnumber : numberLength? (c :: rest) = none) :
    isMark c = true ↔ ¬(c = '"' ∨ c = '\'') := by
  simp [isMark, hblank, isWord_of_no_name hname hnumber]

/-- Past comments and blanks the first alternative with a variable length is taken, or a mark of punctuation. -/
theorem findSome?_precedence {c : Char} {rest : List Char} (hmarker : ¬['/', '*'] <+: c :: rest)
    (hblank : isBlank c = false) (hslashes : ¬['/', '/'] <+: c :: rest) :
    precedence.findSome? (attempt? (c :: rest)) =
      ((literalOrName? (c :: rest)).map fun found => (Lexeme.token found.1, found.2)).or
        (attempt? (c :: rest) (.token .punct)) := by
  rw [← List.isPrefixOf_iff_prefix] at hmarker hslashes
  have hcomment : attempt? (c :: rest) .blockComment = none := by simp [attempt?, length?, commentLength?, hmarker]
  have hblanks : attempt? (c :: rest) .blanks = none := by simp [attempt?, length?, blanksLength?, hblank]
  have hline : attempt? (c :: rest) .lineComment = none := by simp [attempt?, length?, lineCommentLength?, hslashes]
  calc
    _ = (literalsAndNames ++ [Lexeme.token .punct]).findSome? (attempt? (c :: rest)) := by
      rw [show precedence = [blockComment, blanks, lineComment] ++ (literalsAndNames ++ [Lexeme.token .punct]) from rfl,
        List.findSome?_append]
      simp only [List.findSome?_cons, hcomment, hblanks, hline, List.findSome?_nil, Option.none_or]
    _ = _ := by rw [List.findSome?_append, List.findSome?_singleton, map_literalOrName?]

/-- A block comment without an end is refused; otherwise the first of the alternatives that fits is taken, and where
none does, a quote begins no literal. -/
theorem first_eq (c : Char) (rest : List Char) :
    first c rest =
      if ['/', '*'] <+: c :: rest ∧ blockCommentLength? 0 (c :: rest) = none then .error .openComment
      else match precedence.findSome? (attempt? (c :: rest)) with
        | some found => .ok found
        | none => .error .openLiteral := by
  simp only [first, List.isPrefixOf_iff_prefix]
  by_cases hmarker : ['/', '*'] <+: c :: rest
  · cases hsize : blockCommentLength? 0 (c :: rest) <;>
      simp [hmarker, hsize, precedence, attempt?, length?, commentLength?, List.isPrefixOf_iff_prefix]
  cases hblank : isBlank c with
  | true =>
    simp [hmarker, hblank, precedence, attempt?, length?, commentLength?, blanksLength?, List.isPrefixOf_iff_prefix]
  | false =>
    by_cases hslashes : ['/', '/'] <+: c :: rest
    · simp [hmarker, hblank, hslashes, precedence, attempt?, length?, commentLength?, blanksLength?,
        lineCommentLength?, List.isPrefixOf_iff_prefix]
    rw [findSome?_precedence hmarker hblank hslashes]
    cases hread : literalOrName? (c :: rest) with
    | some found => simp [hmarker, hslashes]
    | none =>
      simp only [literalOrName?, Option.or_eq_none_iff, Option.map_eq_none_iff] at hread
      obtain ⟨⟨-, hname⟩, hnumber⟩ := hread
      have hmark := isMark_iff_of_no_name hblank hname hnumber
      by_cases hquote : c = '"' ∨ c = '\''
      · simp [hmarker, hslashes, hquote, attempt?, length?, markLength?, hmark]
      · simp [hmarker, hslashes, hquote, attempt?, length?, markLength?, hmark]

theorem mem_precedence (lexeme : Lexeme) : lexeme ∈ precedence := by
  cases lexeme with
  | token kind => cases kind <;> decide
  | _ => decide

/-- Where an alternative is the first that takes something, those before it in the order take nothing. -/
theorem length?_eq_none_of_earlier {front back : List Lexeme} {lexeme earlier : Lexeme}
    (hprecedence : precedence = front ++ lexeme :: back) (hfront : ∀ other ∈ front, attempt? cs other = none)
    (hmem : earlier ∈ precedence.takeWhile (· != lexeme)) : earlier.length? cs = none := by
  have hin : earlier ∈ front := by
    rw [hprecedence, List.takeWhile_append] at hmem
    split at hmem
    · simpa using hmem
    · exact (List.takeWhile_prefix _).subset hmem
  exact Option.map_eq_none_iff.1 (hfront earlier hin)

theorem first_cases (c : Char) (rest : List Char) :
    (∃ lexeme text after, c :: rest = text ++ after ∧ Heads lexeme text after ∧
        first c rest = .ok (lexeme, text.length)) ∨
      ∃ flaw, Stuck (c :: rest) flaw ∧ first c rest = .error flaw := by
  rw [first_eq]
  by_cases hopen : ['/', '*'] <+: c :: rest ∧ blockCommentLength? 0 (c :: rest) = none
  · rw [if_pos hopen]
    have hcomment : commentLength? (c :: rest) = none := by
      rw [commentLength?, if_pos (List.isPrefixOf_iff_prefix.2 hopen.1), hopen.2]
    exact .inr ⟨.openComment, ⟨hopen.1, measures_blockComment.not_startsWith hcomment⟩, rfl⟩
  rw [if_neg hopen]
  cases hfound : precedence.findSome? (attempt? (c :: rest)) with
  | some found =>
    obtain ⟨front, lexeme, back, hprecedence, hattempt, hfront⟩ := List.findSome?_eq_some_iff.1 hfound
    obtain ⟨rfl, hsize⟩ := attempt?_eq_some_iff.1 hattempt
    have hearlier : ∀ earlier ∈ precedence.takeWhile (· != found.1), earlier.length? (c :: rest) = none :=
      fun earlier => length?_eq_none_of_earlier hprecedence hfront
    have hclosed (hne : found.1 ≠ .blockComment) : ¬['/', '*'] <+: c :: rest := by
      intro hmarker
      have hcomment : commentLength? (c :: rest) = none := hearlier .blockComment (by simp [precedence, hne.symm])
      rw [commentLength?, if_pos (List.isPrefixOf_iff_prefix.2 hmarker)] at hcomment
      exact hopen ⟨hmarker, hcomment⟩
    obtain ⟨text, after, hcs, htext, hheads⟩ := exists_heads hsize hearlier hclosed
    exact .inl ⟨found.1, text, after, hcs, hheads, congrArg Except.ok (Prod.ext rfl htext)⟩
  | none =>
    have hnone (lexeme : Lexeme) : lexeme.length? (c :: rest) = none :=
      Option.map_eq_none_iff.1 (List.findSome?_eq_none_iff.1 hfound lexeme (mem_precedence lexeme))
    have hblank : isBlank c = false := by simpa [length?, blanksLength?] using hnone .blanks
    have hmark : isMark c = false := by simpa [length?, markLength?] using hnone (.token .punct)
    have hquote : c = '"' ∨ c = '\'' := by
      have hiff := isMark_iff_of_no_name hblank (hnone (.token .ident)) (hnone (.token .number))
      rwa [hmark, iff_comm, ← not_iff_not, not_not, Bool.false_eq_true, not_false_iff, iff_true] at hiff
    refine .inr ⟨.openLiteral, ⟨⟨rest, ?_⟩, fun lexeme => ?_⟩, rfl⟩
    · simpa using hquote
    · exact (measures_length lexeme).not_startsWith (hnone lexeme)

theorem heads_of_first {c : Char} {rest : List Char} {lexeme : Lexeme} (h : first c rest = .ok (lexeme, size)) :
    Heads lexeme (c :: rest.take (size - 1)) (rest.drop (size - 1)) := by
  obtain ⟨found, text, after, hcs, hheads, hok⟩ | ⟨flaw, -, herror⟩ := first_cases c rest
  · rw [h, Except.ok.injEq, Prod.mk.injEq] at hok
    obtain ⟨rfl, rfl⟩ := hok
    obtain ⟨d, inner, rfl⟩ := List.exists_cons_of_ne_nil hheads.nonempty
    rw [List.cons_append, List.cons.injEq] at hcs
    obtain ⟨rfl, rfl⟩ := hcs
    rwa [List.length_cons, Nat.add_sub_cancel, List.take_left, List.drop_left]
  · rw [h] at herror
    exact absurd herror (by simp)

end Lexeme

/-! ### Cuts -/

/-- Pieces of a source, from the beginning of a line on, with the rest of the source after them. -/
structure IsCut (line : Nat) (pieces : List Piece) (rest : List Char) : Prop where
  heads : ∀ before piece after, pieces = before ++ piece :: after →
    piece.lexeme.Heads piece.text ((after.map Piece.text).flatten ++ rest)
  line : ∀ before piece after, pieces = before ++ piece :: after →
    piece.line = line + ((before.map Piece.text).flatten).count '\n'

theorem IsCut.nil (line : Nat) (rest : List Char) : IsCut line [] rest := by
  constructor
  · intro before piece after h
    exact absurd h (by simp)
  · intro before piece after h
    exact absurd h (by simp)

theorem IsCut.cons {line : Nat} {lexeme : Lexeme} {text rest : List Char} {pieces : List Piece}
    (hheads : lexeme.Heads text ((pieces.map Piece.text).flatten ++ rest))
    (h : IsCut (line + text.count '\n') pieces rest) : IsCut line (⟨lexeme, text, line⟩ :: pieces) rest := by
  constructor
  · intro before piece after hpieces
    cases before with
    | nil =>
      obtain ⟨rfl, rfl⟩ := List.cons.inj hpieces
      exact hheads
    | cons first before => exact h.heads before piece after (List.cons.inj hpieces).2
  · intro before piece after hpieces
    cases before with
    | nil =>
      obtain ⟨rfl, rfl⟩ := List.cons.inj hpieces
      rfl
    | cons first before =>
      obtain ⟨rfl, hrest⟩ := List.cons.inj hpieces
      rw [h.line before piece after hrest, List.map_cons, List.flatten_cons, List.count_append, Nat.add_assoc]

/-- Every source is cut to its end, or up to a place where no lexeme begins. -/
theorem piecesFrom_cases (line : Nat) (cs : List Char) :
    ∃ pieces rest, cs = (pieces.map Piece.text).flatten ++ rest ∧ IsCut line pieces rest ∧
      (rest = [] ∧ piecesFrom line cs = .ok pieces ∨
        ∃ flaw, Lexeme.Stuck rest flaw ∧
          piecesFrom line cs = .error ⟨flaw, line + ((pieces.map Piece.text).flatten).count '\n'⟩) := by
  fun_induction piecesFrom line cs with
  | case1 line => exact ⟨[], [], rfl, .nil line [], .inl ⟨rfl, rfl⟩⟩
  | case2 line c rest flaw hfirst =>
    obtain ⟨lexeme, text, after, -, -, hok⟩ | ⟨stuck, hstuck, herror⟩ := Lexeme.first_cases c rest
    · rw [hfirst] at hok
      exact absurd hok (by simp)
    · rw [hfirst, Except.error.injEq] at herror
      subst herror
      exact ⟨[], c :: rest, rfl, .nil line _, .inr ⟨flaw, hstuck, rfl⟩⟩
  | case3 line c rest lexeme size hfirst text error htail ih =>
    obtain ⟨pieces, after, hrest, hcut, ⟨-, hok⟩ | ⟨flaw, hstuck, herror⟩⟩ := ih
    · rw [htail] at hok
      exact absurd hok (by simp)
    · rw [htail, Except.error.injEq] at herror
      subst herror
      refine ⟨_, after, ?_, hcut.cons (hrest ▸ Lexeme.heads_of_first hfirst), .inr ⟨flaw, hstuck, ?_⟩⟩
      · rw [List.map_cons, List.flatten_cons, List.append_assoc, ← hrest, List.cons_append, List.take_append_drop]
      · rw [List.map_cons, List.flatten_cons, List.count_append, Nat.add_assoc]
  | case4 line c rest lexeme size hfirst text tail htail ih =>
    obtain ⟨pieces, after, hrest, hcut, ⟨rfl, hok⟩ | ⟨flaw, hstuck, herror⟩⟩ := ih
    · rw [htail, Except.ok.injEq] at hok
      subst hok
      refine ⟨_, [], ?_, hcut.cons (hrest ▸ Lexeme.heads_of_first hfirst), .inl ⟨rfl, rfl⟩⟩
      rw [List.map_cons, List.flatten_cons, List.append_assoc, ← hrest, List.cons_append, List.take_append_drop]
    · rw [htail] at herror
      exact absurd herror (by simp)

/-- The text of every token is a text of its kind. -/
theorem mem_pattern_of_mem_tokens {source : String} {tokens : List Token} (h : Rust.tokens source = .ok tokens) :
    ∀ token ∈ tokens, token.text.toList ∈ token.kind.pattern := by
  rw [Rust.tokens] at h
  obtain ⟨pieces, rest, -, hcut, ⟨-, hok⟩ | ⟨flaw, -, herror⟩⟩ := piecesFrom_cases 1 source.toList
  · rw [hok] at h
    obtain rfl := Except.ok.inj h
    intro token htoken
    obtain ⟨piece, hpiece, hkind⟩ := List.mem_filterMap.1 htoken
    obtain ⟨before, after, hpieces⟩ := List.append_of_mem hpiece
    have hmem := (hcut.heads before piece after hpieces).mem
    unfold Piece.token? at hkind
    split at hkind
    · rename_i kind hlexeme
      obtain rfl := Option.some.inj hkind
      rw [hlexeme] at hmem
      rwa [String.toList_ofList]
    · exact absurd hkind (by simp)
  · rw [herror] at h
    exact absurd h (by simp [Except.map])

/-- The lexer loses nothing. A source is cut into pieces, from its first line on, of which the tokens are those that
are returned; or it is cut up to a place where a block comment or a literal is not ended, and the error names the line
of this place. -/
theorem tokens_lossless (source : String) :
    ∃ pieces rest, source.toList = (pieces.map Piece.text).flatten ++ rest ∧ IsCut 1 pieces rest ∧
      (rest = [] ∧ tokens source = .ok (pieces.filterMap Piece.token?) ∨
        ∃ flaw, Lexeme.Stuck rest flaw ∧
          (flaw.message = "unterminated block comment" ∨ flaw.message = "unterminated literal") ∧
          tokens source = .error ⟨flaw, 1 + ((pieces.map Piece.text).flatten).count '\n'⟩) := by
  obtain ⟨pieces, rest, hsource, hcut, ⟨rfl, hok⟩ | ⟨flaw, hstuck, herror⟩⟩ := piecesFrom_cases 1 source.toList
  · exact ⟨pieces, [], hsource, hcut, .inl ⟨rfl, by rw [tokens, hok]; rfl⟩⟩
  · refine ⟨pieces, rest, hsource, hcut, .inr ⟨flaw, hstuck, ?_, by rw [tokens, herror]; rfl⟩⟩
    cases flaw with
    | openComment => exact .inl rfl
    | openLiteral => exact .inr rfl
    | _ => exact hstuck.elim

end FfiBindings.Rust
