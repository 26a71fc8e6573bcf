import FfiBindings.Proofs.Rust.Items
import FfiBindings.Proofs.Rust.TypeGrammar

/-!
Where the header of an `impl` or `trait` block ends. It ends at the first brace or semicolon outside parentheses and
square brackets, and angle brackets do not count there. So a block is passed over whole where its arguments in angle
brackets hold no such mark (`AngledBlock.HidesMarks`). In any other block the header is cut at the first of these marks
(`Cut`), what is left of it is read like the beginning of an item, and the items in the braces of the block are read
with those around it (`block_passed_over`).
-/

set_option autoImplicit false
set_option relaxedAutoImplicit false

namespace FfiBindings.Rust

namespace Grammar

/-- An `impl` or `trait` block with a header in which angle brackets group as well, whatever they hold, and with any
content in its braces. -/
structure AngledBlock where
  lead : Lead
  keyword : Token
  header : List Token
  body : Group .brace [.brace]
  isBlock : keyword.isIdent "impl" = true ∨ keyword.isIdent "trait" = true
  nestedHeader : Nested Bracket.all inHeader header

def AngledBlock.tokens (block : AngledBlock) : List Token :=
  block.lead.tokens ++ block.keyword :: (block.header ++ block.body.tokens)

/-- Each brace and each semicolon of the header stands in parentheses or square brackets. -/
def AngledBlock.HidesMarks (block : AngledBlock) : Prop :=
  Passes [.paren, .square] endsHeader 0 block.header

instance (block : AngledBlock) : Decidable block.HidesMarks :=
  inferInstanceAs (Decidable (Passes _ _ _ _))

/-- What is left of a header when it is cut at its first semicolon, or at its first braces, outside parentheses and
square brackets. -/
inductive Cut : (header left : List Token) → Prop
  | semicolon {front back : List Token} (mark : Mark ";") (hfront : Passes [.paren, .square] endsHeader 0 front)
      (hdepth : depthSum [.paren, .square] front = 0) : Cut (front ++ mark.1 :: back) back
  | braces {front back : List Token} (group : Group .brace Bracket.all)
      (hfront : Passes [.paren, .square] endsHeader 0 front) (hdepth : depthSum [.paren, .square] front = 0) :
      Cut (front ++ (group.tokens ++ back)) back

/-- Tokens that tell nothing of an item. -/
def IsQuiet (tokens : List Token) : Prop :=
  ∀ token ∈ tokens, token.isPunct "#" = false ∧ token.isPunct "!" = false ∧ token.text ∉ reserved

end Grammar

open Grammar

/-! ### The end of a header -/

theorem block_of_cut {keyword : Token} {header left : List Token} (h : Cut header left) (rest : List Token) :
    Item.block keyword (header ++ rest) = .ok ⟨{}, left ++ rest, none⟩ := by
  cases h with
  | @semicolon front _ mark hfront hdepth =>
    have hsize : Item.headerSize? 0 (front ++ mark.1 :: (left ++ rest)) = some front.length :=
      headerSize?_eq _ hfront hdepth (by simp [endsHeader, mark.2])
    have hsemicolon : nextIsPunct (mark.1 :: (left ++ rest)) ";" = true := mark.2
    rw [List.append_assoc, List.cons_append]
    simp [Item.block, hsize, hsemicolon]
  | braces group hfront hdepth =>
    rw [List.append_assoc, List.append_assoc]
    exact block_braces group (by decide) hfront hdepth _

/-- A header with a mark outside parentheses and square brackets is cut at the first one. -/
theorem exists_cut {outer : Token → Bool} {header : List Token} (hnested : Nested Bracket.all outer header)
    (h : ¬Passes [.paren, .square] endsHeader 0 header) : ∃ left, Cut header left := by
  obtain ⟨front, mark, back, rfl, hfront, hdepth, hmark⟩ := exists_of_not_passes h
  rw [Int.zero_add] at hdepth
  by_cases hsemicolon : mark.isPunct ";" = true
  · exact ⟨back, .semicolon ⟨mark, hsemicolon⟩ hfront hdepth⟩
  · have hbrace : mark.isPunct "\x7b" = true := by simpa [endsHeader, hsemicolon] using hmark
    have hopens : Bracket.brace.opens mark = true := hbrace
    have hclosed : Closed Bracket.all (front ++ mark :: back) := by
      simpa using hnested.closed_append .nil
    obtain ⟨inside, closing, after, rfl, hinside, hcloses⟩ :=
      (hclosed.of_suffix (List.suffix_append front _)).exists_group (by decide) hopens
    have hcut : Cut (front ++ (_ ++ after)) after :=
      .braces ⟨mark, inside, closing, hopens, hinside, hcloses⟩ hfront hdepth
    rw [Grammar.Group.tokens_append] at hcut
    exact ⟨after, hcut⟩

/-! ### Reading on -/

/-- Quiet tokens are passed over, and the brace behind them begins anew. -/
theorem ofTokensFrom_quiet {tokens : List Token} (h : IsQuiet tokens) (opening : Mark "\x7b") (rest : List Token) :
    Survey.ofTokensFrom {} (tokens ++ opening.1 :: rest) = Survey.ofTokensFrom {} rest := by
  have hdrops {token : Token} (hkind : token.kind ≠ .ident) (hhash : token.isPunct "#" = false) (rest : List Token) :
      Item.step {} token rest = .ok ⟨{}, rest, none⟩ := by
    rw [step_mark hkind hhash, ite_self]
  induction tokens with
  | nil =>
    have hkind : opening.1.kind ≠ .ident := by simp [(Token.isPunct_iff.1 opening.2).1]
    exact Survey.ofTokensFrom_of_step (hdrops hkind (Token.isPunct_eq_false opening.2 (by decide)) rest)
  | cons token tokens ih =>
    obtain ⟨⟨hhash, -, hname⟩, hquiet⟩ := List.forall_mem_cons.1 h
    rw [← ih hquiet]
    apply Survey.ofTokensFrom_of_step
    by_cases hkind : token.kind = .ident
    · have hnext : nextIsPunct (tokens ++ opening.1 :: rest) "!" = false := by
        cases tokens with
        | nil => exact Token.isPunct_eq_false opening.2 (by decide)
        | cons next tokens => exact (hquiet next List.mem_cons_self).2.1
      rw [List.append_eq, step_name hkind hname, hnext, if_neg (by simp)]
    · exact hdrops hkind hhash _

theorem ofTokensFrom_angledBlock (block : AngledBlock) {left rest : List Token}
    (h : Item.block block.keyword (block.header ++ (block.body.tokens ++ rest)) = .ok ⟨{}, left, none⟩) :
    Survey.ofTokensFrom {} (block.tokens ++ rest) = Survey.ofTokensFrom {} left := by
  simp only [AngledBlock.tokens, List.append_assoc, List.cons_append]
  exact ofTokensFrom_blockKeyword _ block.isBlock h

/-- The items in braces, and those behind them, are read behind quiet tokens. -/
theorem ofTokensFrom_content {left : List Token} (hquiet : IsQuiet left) (body : Grammar.Group .brace [.brace])
    {content : Items} (hcontent : body.inside = content.tokens) (rest : List Token) :
    Survey.ofTokensFrom {} (left ++ (body.tokens ++ rest)) =
      (Survey.ofTokensFrom {} rest).after content.findings := by
  rw [body.tokens_append, ofTokensFrom_quiet hquiet ⟨body.opening, body.opens⟩, hcontent, ofTokensFrom_items,
    ofTokensFrom_closing _ body.closes]

/-- Between items, a block is passed over whole if it hides the marks of its header. If not, its header is cut, and what
is left of it is read on with the braces of the block; where what is left is quiet and the braces hold items, these are
found with the others. -/
theorem block_passed_over (block : AngledBlock) (before after : Items) :
    (block.HidesMarks → (Survey.ofTokens (before.tokens ++ (block.tokens ++ after.tokens))).functions =
      .ok (before.exports ++ after.exports)) ∧
    (¬block.HidesMarks → ∃ left, Cut block.header left ∧
      Survey.ofTokens (before.tokens ++ (block.tokens ++ after.tokens)) =
        (Survey.ofTokens (left ++ (block.body.tokens ++ after.tokens))).after before.findings ∧
      ∀ content : Items, IsQuiet left → block.body.inside = content.tokens →
        (Survey.ofTokens (before.tokens ++ (block.tokens ++ after.tokens))).functions =
          .ok (before.exports ++ (content.exports ++ after.exports))) ∧
    ∀ source, tokens source = .ok (before.tokens ++ (block.tokens ++ after.tokens)) →
      exportedFunctions source = (Survey.ofTokens (before.tokens ++ (block.tokens ++ after.tokens))).functions := by
  have hfunctions {left : List Token}
      (h : Item.block block.keyword (block.header ++ (block.body.tokens ++ after.tokens)) = .ok ⟨{}, left, none⟩) :
      Survey.ofTokens (before.tokens ++ (block.tokens ++ after.tokens)) =
        (Survey.ofTokens left).after before.findings := by
    simp only [Survey.ofTokens, ofTokensFrom_items, ofTokensFrom_angledBlock block h]
  refine ⟨fun hhides => ?_, fun hshows => ?_, fun source htokens => exportedFunctions_eq htokens⟩
  · have hdepth : depthSum [.paren, .square] block.header = 0 := block.nestedHeader.depthSum_eq_zero (by decide)
    rw [hfunctions (block_braces block.body (by decide) hhides hdepth _), Survey.functions_after,
      Survey.functions_items]
    rfl
  · obtain ⟨left, hcut⟩ := exists_cut block.nestedHeader hshows
    have hread := hfunctions (block_of_cut hcut (block.body.tokens ++ after.tokens))
    refine ⟨left, hcut, hread, fun content hquiet hcontent => ?_⟩
    have hfound : Survey.ofTokens (left ++ (block.body.tokens ++ after.tokens)) =
        (Survey.ofTokens after.tokens).after content.findings :=
      ofTokensFrom_content hquiet block.body hcontent after.tokens
    rw [hread, hfound, Survey.functions_after, Survey.functions_after, Survey.functions_items]
    rfl

namespace Sample

/-- The attribute `no_mangle` and a function `m`, to stand in a block. -/
def method : List Token :=
  [mark "#", mark "[", word "no_mangle", mark "]", word "pub", word "fn", word "m", mark "(", mark ")", mark "\x7b",
    mark "\x7d"]

theorem nested_method : Nested [.brace] anywhere method := by
  have hfront : Nested [.brace] anywhere (method.take 9) := .of_plain (by decide)
  have hopens : Bracket.brace.opens (mark "\x7b") = true := isPunct_mark "\x7b"
  exact hfront.append (.group (List.mem_singleton_self _) hopens rfl .nil (isPunct_mark "\x7d") .nil)

theorem nested_header {bracket : Bracket} (argument : Grammar.Group bracket Bracket.all) :
    Nested Bracket.all inHeader (word "Foo" :: mark "<" :: (argument.tokens ++ [mark ">"])) := by
  have hname : IsPlain Bracket.all (word "Foo") := by decide
  have hangle : inHeader (mark "<") = true := by decide
  have hinside : Nested Bracket.all anywhere argument.tokens :=
    .group (Bracket.mem_all bracket) argument.opens rfl argument.nested argument.closes .nil
  exact .plain hname (by decide)
    (.group (Bracket.mem_all .angle) (isPunct_mark "<") hangle hinside (isPunct_mark ">") .nil)

theorem isBlock_impl : (word "impl").isIdent "impl" = true ∨ (word "impl").isIdent "trait" = true :=
  .inl (isIdent_word "impl")

/-- An `impl` block of a type with the given argument, which holds the function. -/
def implementation {bracket : Bracket} (argument : Grammar.Group bracket Bracket.all) : AngledBlock where
  lead := ⟨[], .inherited, []⟩
  keyword := word "impl"
  header := word "Foo" :: mark "<" :: (argument.tokens ++ [mark ">"])
  body := ⟨mark "\x7b", method, mark "\x7d", isPunct_mark "\x7b", nested_method, isPunct_mark "\x7d"⟩
  isBlock := isBlock_impl
  nestedHeader := nested_header argument

theorem nested_array : Nested Bracket.all anywhere [word "u8", mark ";", word "N"] := .of_plain (by decide)

theorem nested_sum : Nested Bracket.all anywhere [word "N", mark "+", word "M"] := .of_plain (by decide)

def array : Grammar.Group .square Bracket.all :=
  ⟨mark "[", [word "u8", mark ";", word "N"], mark "]", isPunct_mark "[", nested_array, isPunct_mark "]"⟩

def sum : Grammar.Group .brace Bracket.all :=
  ⟨mark "\x7b", [word "N", mark "+", word "M"], mark "\x7d", isPunct_mark "\x7b", nested_sum, isPunct_mark "\x7d"⟩

end Sample

open Sample

/-- Square brackets hide a semicolon, so the function in the block is not found. -/
theorem block_passed_over_array :
    (implementation array).HidesMarks ∧
      (Survey.ofTokens ((Items.function function .none).tokens ++
        ((implementation array).tokens ++ items.tokens))).functions =
        .ok [⟨"go", [⟨"u8", "x"⟩], "u8", 1⟩, ⟨"go", [⟨"u8", "x"⟩], "u8", 1⟩] := by
  have hhides : (implementation array).HidesMarks := by decide +kernel
  refine ⟨hhides, ((block_passed_over (implementation array) (.function function .none) items).1 hhides).trans ?_⟩
  decide +kernel

/-- An argument in braces is taken for the block, and the function in the block is found. -/
theorem block_ends_in_header :
    tokens "impl Foo<\x7bN + M\x7d> \x7b#[no_mangle] pub fn m() \x7b\x7d\x7d" = .ok (implementation sum).tokens ∧
      exportedFunctions "impl Foo<\x7bN + M\x7d> \x7b#[no_mangle] pub fn m() \x7b\x7d\x7d" =
        .ok [⟨"m", [], "void", 1⟩] := by
  decide +kernel

end FfiBindings.Rust
