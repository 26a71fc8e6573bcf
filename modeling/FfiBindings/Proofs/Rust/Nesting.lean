import FfiBindings.Rust.Signature
import Mathlib.Algebra.Ring.Int.Defs
import Mathlib.Tactic.Common

/-!
Properly nested brackets. `Nested` says that the brackets of some kinds open and close in proper order,
and which tokens stand outside all of them. A group with a nested inside ends where it should, however
many kinds of brackets the inside has (`group?_of_nested`), although the search for its end counts one
kind alone. Everything that walks along tokens with a running depth goes through nested tokens without
a stop (`Nested.passes`), and comes out at the depth it went in with (`Nested.depthSum_eq_zero`).
-/

set_option autoImplicit false
set_option relaxedAutoImplicit false

namespace FfiBindings.Rust

namespace Bracket

theorem opening_injective {a b : Bracket} (h : a.opening = b.opening) : a = b := by
  cases a <;> cases b <;> first | rfl | exact absurd h (by decide)

theorem closing_injective {a b : Bracket} (h : a.closing = b.closing) : a = b := by
  cases a <;> cases b <;> first | rfl | exact absurd h (by decide)

theorem opening_ne_closing (a b : Bracket) : a.opening ≠ b.closing := by
  cases a <;> cases b <;> decide

end Bracket

theorem Token.isPunct_iff {token : Token} {text : String} :
    token.isPunct text = true ↔ token.kind = .punct ∧ token.text = text := by
  simp [Token.isPunct]

theorem Token.isIdent_iff {token : Token} {text : String} :
    token.isIdent text = true ↔ token.kind = .ident ∧ token.text = text := by
  simp [Token.isIdent]

namespace Bracket

variable {a b : Bracket} {token : Token}

theorem eq_of_opens (ha : a.opens token = true) (hb : b.opens token = true) : a = b :=
  opening_injective ((Token.isPunct_iff.1 ha).2.symm.trans (Token.isPunct_iff.1 hb).2)

theorem eq_of_closes (ha : a.closes token = true) (hb : b.closes token = true) : a = b :=
  closing_injective ((Token.isPunct_iff.1 ha).2.symm.trans (Token.isPunct_iff.1 hb).2)

theorem closes_eq_false_of_opens (ha : a.opens token = true) : b.closes token = false := by
  by_contra hb
  rw [Bool.not_eq_false] at hb
  exact opening_ne_closing a b
    ((Token.isPunct_iff.1 ha).2.symm.trans (Token.isPunct_iff.1 hb).2)

theorem opens_eq_false_of_closes (ha : a.closes token = true) : b.opens token = false := by
  by_contra hb
  rw [Bool.not_eq_false] at hb
  exact absurd ha (by rw [closes_eq_false_of_opens hb]; simp)

/-- An opening bracket counts where its kind does. -/
theorem depthChange_of_opens {among : List Bracket} (h : a.opens token = true) :
    depthChange among token = if a ∈ among then 1 else 0 := by
  have hcloses : among.any (·.closes token) = false := by
    rw [List.any_eq_false]
    intro other _
    simp [closes_eq_false_of_opens h]
  have hopens : among.any (·.opens token) = true ↔ a ∈ among := by
    rw [List.any_eq_true]
    constructor
    · rintro ⟨other, hmem, hother⟩
      rwa [eq_of_opens h hother]
    · intro hmem
      exact ⟨a, hmem, h⟩
  by_cases hmem : a ∈ among
  · simp [depthChange, hopens.2 hmem, hmem]
  · have hnone : among.any (·.opens token) = false := by
      rw [← Bool.not_eq_true, hopens]
      exact hmem
    simp [depthChange, hnone, hcloses, hmem]

theorem depthChange_of_closes {among : List Bracket} (h : a.closes token = true) :
    depthChange among token = if a ∈ among then -1 else 0 := by
  have hopens : among.any (·.opens token) = false := by
    rw [List.any_eq_false]
    intro other _
    simp [opens_eq_false_of_closes h]
  have hcloses : among.any (·.closes token) = true ↔ a ∈ among := by
    rw [List.any_eq_true]
    constructor
    · rintro ⟨other, hmem, hother⟩
      rwa [eq_of_closes h hother]
    · intro hmem
      exact ⟨a, hmem, h⟩
  by_cases hmem : a ∈ among
  · simp [depthChange, hopens, hcloses.2 hmem, hmem]
  · have hnone : among.any (·.closes token) = false := by
      rw [← Bool.not_eq_true, hcloses]
      exact hmem
    simp [depthChange, hopens, hnone, hmem]

end Bracket

/-- Neither an opening nor a closing bracket of the given kinds. -/
def IsPlain (among : List Bracket) (token : Token) : Prop :=
  ∀ bracket ∈ among, bracket.opens token = false ∧ bracket.closes token = false

instance (among : List Bracket) (token : Token) : Decidable (IsPlain among token) :=
  inferInstanceAs (Decidable (∀ bracket ∈ among, bracket.opens token = false ∧ bracket.closes token = false))

theorem IsPlain.depthChange_eq_zero {among sub : List Bracket} {token : Token}
    (h : IsPlain among token) (hsub : sub ⊆ among) : Bracket.depthChange sub token = 0 := by
  have hopens : sub.any (·.opens token) = false := by
    rw [List.any_eq_false]
    intro bracket hmem
    simp [(h bracket (hsub hmem)).1]
  have hcloses : sub.any (·.closes token) = false := by
    rw [List.any_eq_false]
    intro bracket hmem
    simp [(h bracket (hsub hmem)).2]
  simp [Bracket.depthChange, hopens, hcloses]

theorem isPlain_of_kind_ne {among : List Bracket} {token : Token} (h : token.kind ≠ .punct) :
    IsPlain among token := by
  intro bracket _
  simp [Bracket.opens, Bracket.closes, Token.isPunct, h]

theorem isPlain_of_isPunct {among : List Bracket} {token : Token} {text : String}
    (h : token.isPunct text = true)
    (hmark : ∀ bracket ∈ Bracket.all, text ≠ bracket.opening ∧ text ≠ bracket.closing) :
    IsPlain among token := by
  intro bracket _
  have hall : bracket ∈ Bracket.all := by cases bracket <;> decide
  obtain ⟨hopening, hclosing⟩ := hmark bracket hall
  obtain ⟨-, rfl⟩ := Token.isPunct_iff.1 h
  simp [Bracket.opens, Bracket.closes, Token.isPunct, hopening, hclosing]

def anywhere : Token → Bool := fun _ => true

/-- Tokens in which the brackets of the given kinds are properly nested. The condition holds for every
token outside all brackets and for the opening brackets of the outermost groups. -/
inductive Nested (among : List Bracket) : (outer : Token → Bool) → List Token → Prop
  | nil {outer : Token → Bool} : Nested among outer []
  | plain {outer : Token → Bool} {token : Token} {rest : List Token} (hplain : IsPlain among token)
      (houter : outer token = true) (hrest : Nested among outer rest) :
      Nested among outer (token :: rest)
  | group {outer : Token → Bool} {bracket : Bracket} {opening closing : Token}
      {inside rest : List Token} (hmem : bracket ∈ among) (hopens : bracket.opens opening = true)
      (houter : outer opening = true) (hinside : Nested among anywhere inside)
      (hcloses : bracket.closes closing = true) (hrest : Nested among outer rest) :
      Nested among outer (opening :: (inside ++ closing :: rest))

namespace Nested

variable {among : List Bracket} {outer : Token → Bool} {tokens : List Token}

theorem mono {wider : Token → Bool} (h : Nested among outer tokens)
    (hwider : ∀ token, outer token = true → wider token = true) : Nested among wider tokens := by
  induction h with
  | nil => exact .nil
  | plain hplain houter _ ih => exact .plain hplain (hwider _ houter) (ih hwider)
  | group hmem hopens houter hinside hcloses _ _ ih =>
    exact .group hmem hopens (hwider _ houter) hinside hcloses (ih hwider)

theorem append {more : List Token} (h : Nested among outer tokens) (hmore : Nested among outer more) :
    Nested among outer (tokens ++ more) := by
  induction h with
  | nil => exact hmore
  | plain hplain houter _ ih => exact .plain hplain houter (ih hmore)
  | group hmem hopens houter hinside hcloses _ _ ih =>
    simpa using Nested.group hmem hopens houter hinside hcloses (ih hmore)

end Nested

/-- Tokens in which every bracket that opens is closed in proper order, and which may close some that
were opened before: what is left of nested tokens after any of them. -/
inductive Closed (among : List Bracket) : List Token → Prop
  | nil : Closed among []
  | skip {token : Token} {rest : List Token}
      (hopens : ∀ bracket ∈ among, bracket.opens token = false) (hrest : Closed among rest) :
      Closed among (token :: rest)
  | group {bracket : Bracket} {opening closing : Token} {inside rest : List Token}
      (hmem : bracket ∈ among) (hopens : bracket.opens opening = true)
      (hinside : Nested among anywhere inside) (hcloses : bracket.closes closing = true)
      (hrest : Closed among rest) : Closed among (opening :: (inside ++ closing :: rest))

theorem Nested.closed_append {among : List Bracket} {outer : Token → Bool} {tokens rest : List Token}
    (h : Nested among outer tokens) (hrest : Closed among rest) : Closed among (tokens ++ rest) := by
  induction h with
  | nil => exact hrest
  | plain hplain _ _ ih => exact .skip (fun bracket hmem => (hplain bracket hmem).1) ih
  | group hmem hopens _ hinside hcloses _ _ ih =>
    simpa using Closed.group hmem hopens hinside hcloses ih

namespace Closed

variable {among : List Bracket} {token : Token} {rest : List Token}

theorem tail (h : Closed among (token :: rest)) : Closed among rest := by
  cases h with
  | skip _ hrest => exact hrest
  | group _ _ hinside hcloses hrest =>
    exact hinside.closed_append
      (.skip (fun bracket _ => Bracket.opens_eq_false_of_closes hcloses) hrest)

theorem of_suffix {tokens left : List Token} (h : Closed among tokens) (hleft : left <:+ tokens) :
    Closed among left := by
  obtain ⟨front, rfl⟩ := hleft
  induction front with
  | nil => exact h
  | cons token front ih => exact ih h.tail

theorem exists_group {bracket : Bracket} (h : Closed among (token :: rest)) (hmem : bracket ∈ among)
    (hopens : bracket.opens token = true) :
    ∃ inside closing after, rest = inside ++ closing :: after ∧ Nested among anywhere inside ∧
      bracket.closes closing = true := by
  cases h with
  | skip hno _ => simp [hno bracket hmem] at hopens
  | @group other _ closing inside after _ hother hinside hcloses _ =>
    obtain rfl := Bracket.eq_of_opens hopens hother
    exact ⟨inside, closing, after, rfl, hinside, hcloses⟩

end Closed

/-! ### The end of a group -/

/-- Nested tokens leave the count of any one kind of bracket as it was. -/
theorem groupFrom?_nested {among : List Bracket} {outer : Token → Bool} {inside : List Token}
    {bracket : Bracket} (h : Nested among outer inside) (hmem : bracket ∈ among) (depth : Nat)
    (rest : List Token) :
    groupFrom? bracket depth (inside ++ rest) =
      (groupFrom? bracket depth rest).map fun (inner, after) => (inside ++ inner, after) := by
  induction h generalizing depth rest with
  | nil => simp
  | plain hplain _ _ ih =>
    obtain ⟨hopens, hcloses⟩ := hplain bracket hmem
    simp [groupFrom?, hopens, hcloses, ih, Function.comp_def]
  | @group _ other opening closing inner tail hother hopens _ _ hcloses _ ihinner ihtail =>
    rw [List.cons_append, List.append_assoc, List.cons_append]
    by_cases hsame : bracket = other
    · subst hsame
      have hno : bracket.opens closing = false := Bracket.opens_eq_false_of_closes hcloses
      simp [groupFrom?, hopens, hcloses, hno, ihinner, ihtail, Function.comp_def]
    · have hopening : bracket.opens opening = false := by
        by_contra hcontra
        rw [Bool.not_eq_false] at hcontra
        exact hsame (Bracket.eq_of_opens hcontra hopens)
      have hclosing : bracket.closes closing = false := by
        by_contra hcontra
        rw [Bool.not_eq_false] at hcontra
        exact hsame (Bracket.eq_of_closes hcontra hcloses)
      simp [groupFrom?, hopening, hclosing, Bracket.closes_eq_false_of_opens hopens,
        Bracket.opens_eq_false_of_closes hcloses, ihinner, ihtail, Function.comp_def]

/-- A group with a nested inside ends with its own closing bracket. -/
theorem group?_of_nested {among : List Bracket} {outer : Token → Bool} {inside : List Token}
    {bracket : Bracket} {closing : Token} (h : Nested among outer inside) (hmem : bracket ∈ among)
    (hcloses : bracket.closes closing = true) (rest : List Token) :
    group? bracket (inside ++ closing :: rest) = some (inside, rest) := by
  have hopens : bracket.opens closing = false := Bracket.opens_eq_false_of_closes hcloses
  rw [group?, groupFrom?_nested h hmem]
  simp [groupFrom?, hopens, hcloses]

theorem enclosed_of_nested {among : List Bracket} {outer : Token → Bool} {inside : List Token}
    {bracket : Bracket} {opening closing : Token} (h : Nested among outer inside)
    (hmem : bracket ∈ among) (hcloses : bracket.closes closing = true) (enclosure : Enclosure)
    (line : Nat) (rest : List Token) :
    enclosed bracket enclosure line (opening :: (inside ++ closing :: rest)) =
      .ok (inside, rest) := by
  simp [enclosed, group?_of_nested h hmem hcloses]

/-! ### Walking with a running depth -/

/-- How the given kinds of brackets in the tokens change the depth all together. -/
def depthSum (among : List Bracket) (tokens : List Token) : Int :=
  (tokens.map (Bracket.depthChange among)).sum

/-- A walk from the given depth on meets no token that stops it at depth zero. -/
def Passes (among : List Bracket) (stops : Token → Bool) : (depth : Int) → List Token → Prop
  | _, [] => True
  | depth, token :: rest =>
    ¬(depth = 0 ∧ stops token = true) ∧
      Passes among stops (depth + Bracket.depthChange among token) rest

theorem passes_append {among : List Bracket} {stops : Token → Bool} {depth : Int}
    {tokens more : List Token} :
    Passes among stops depth (tokens ++ more) ↔
      Passes among stops depth tokens ∧ Passes among stops (depth + depthSum among tokens) more := by
  induction tokens generalizing depth with
  | nil => simp [Passes, depthSum]
  | cons token tokens ih =>
    simp [Passes, depthSum, ih, and_assoc, Int.add_assoc]

instance decidablePasses (among : List Bracket) (stops : Token → Bool) :
    (depth : Int) → (tokens : List Token) → Decidable (Passes among stops depth tokens)
  | _, [] => .isTrue trivial
  | depth, token :: rest =>
    have := decidablePasses among stops (depth + Bracket.depthChange among token) rest
    inferInstanceAs (Decidable (_ ∧ _))

/-- A walk that does not pass meets a token that stops it; what comes before the first of these it passes. -/
theorem exists_of_not_passes {among : List Bracket} {stops : Token → Bool} {depth : Int} {tokens : List Token}
    (h : ¬Passes among stops depth tokens) :
    ∃ front mark back, tokens = front ++ mark :: back ∧ Passes among stops depth front ∧
      depth + depthSum among front = 0 ∧ stops mark = true := by
  induction tokens generalizing depth with
  | nil => exact absurd trivial h
  | cons token tokens ih =>
    by_cases hstop : depth = 0 ∧ stops token = true
    · exact ⟨[], token, tokens, rfl, trivial, by simp [hstop.1, depthSum], hstop.2⟩
    · obtain ⟨front, mark, back, rfl, hpasses, hdepth, hmark⟩ := ih fun hpasses => h ⟨hstop, hpasses⟩
      refine ⟨token :: front, mark, back, rfl, ⟨hstop, hpasses⟩, ?_, hmark⟩
      simpa [depthSum, Int.add_assoc] using hdepth

namespace Nested

variable {among sub : List Bracket} {outer stops : Token → Bool} {tokens : List Token}

theorem depthSum_eq_zero (h : Nested among outer tokens) (hsub : sub ⊆ among) :
    depthSum sub tokens = 0 := by
  induction h with
  | nil => rfl
  | plain hplain _ _ ih =>
    simpa [depthSum, hplain.depthChange_eq_zero hsub] using ih
  | group hmem hopens _ _ hcloses _ ihinside ihrest =>
    simp only [depthSum] at ihinside ihrest ⊢
    simp only [List.map_cons, List.map_append, List.sum_cons, List.sum_append, ihinside, ihrest,
      Bracket.depthChange_of_opens hopens, Bracket.depthChange_of_closes hcloses]
    split <;> rfl

/-- Inside a group nothing stops a walk. -/
theorem passes_of_pos (h : Nested among outer tokens) (hsub : sub ⊆ among) {depth : Int}
    (hdepth : 0 < depth) : Passes sub stops depth tokens := by
  induction h generalizing depth with
  | nil => trivial
  | plain hplain _ _ ih =>
    refine ⟨fun hstop => by omega, ?_⟩
    rw [hplain.depthChange_eq_zero hsub]
    exact ih (by omega)
  | @group _ bracket opening closing inside rest hmem hopens _ hinside hcloses _ ihinside ihrest =>
    have hsum := hinside.depthSum_eq_zero hsub
    have hopening : Bracket.depthChange sub opening = _ := Bracket.depthChange_of_opens hopens
    have hclosing : Bracket.depthChange sub closing = _ := Bracket.depthChange_of_closes hcloses
    have hdeeper : 0 < depth + Bracket.depthChange sub opening := by
      rw [hopening]
      split <;> omega
    refine ⟨fun hstop => by omega, passes_append.2 ⟨ihinside hdeeper, fun hstop => by omega, ?_⟩⟩
    refine ihrest ?_
    rw [hsum, hopening, hclosing]
    split <;> omega

/-- A walk that starts outside all brackets goes through nested tokens when it stops at none of those
that stand outside, and when it counts every kind of bracket that opens there. -/
theorem passes (h : Nested among outer tokens) (hsub : sub ⊆ among)
    (hstops : ∀ token, outer token = true → stops token = false)
    (hcounts : ∀ bracket ∈ among, bracket ∉ sub →
      ∀ token, bracket.opens token = true → outer token = false) :
    Passes sub stops 0 tokens := by
  induction h with
  | nil => trivial
  | plain hplain houter _ ih =>
    refine ⟨fun hstop => by simp [hstops _ houter] at hstop, ?_⟩
    rw [hplain.depthChange_eq_zero hsub]
    exact ih hstops hcounts
  | @group _ bracket opening closing inside rest hmem hopens houter hinside hcloses _ _ ihrest =>
    have hin : bracket ∈ sub := by
      by_contra hout
      simp [hcounts bracket hmem hout opening hopens] at houter
    have hsum := hinside.depthSum_eq_zero hsub
    have hopening : Bracket.depthChange sub opening = _ := Bracket.depthChange_of_opens hopens
    have hclosing : Bracket.depthChange sub closing = _ := Bracket.depthChange_of_closes hcloses
    rw [if_pos hin] at hopening hclosing
    refine ⟨fun hstop => by simp [hstops _ houter] at hstop, ?_⟩
    rw [hopening]
    refine passes_append.2 ⟨hinside.passes_of_pos hsub (by omega), fun hstop => by omega, ?_⟩
    rw [hsum, hclosing]
    exact ihrest hstops hcounts

end Nested

end FfiBindings.Rust
