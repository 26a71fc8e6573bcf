import FfiBindings.Proofs.Rust.Items

/-!
Where a group ends. The search for the end of a group counts the two marks of one bracket from the opening one on, and
stops at the first token at which they have come equally often (`EndsGroup`). That token is the end of the group, there
is none exactly where the group is left open, and whatever is no such mark may be taken out everywhere without a
difference (`enclosed_filter`), above all literals and arrows (`enclosed_matches`).
-/

set_option autoImplicit false
set_option relaxedAutoImplicit false

namespace FfiBindings.Rust

variable {bracket : Bracket} {depth deeper size cursor : Nat} {tokens rest inside after : List Token}
  {token opening : Token}

/-! ### Counting one kind of bracket -/

/-- The two marks of a bracket come equally often. -/
def EquallyOften (bracket : Bracket) (tokens : List Token) : Prop :=
  tokens.countP (·.isPunct bracket.opening) = tokens.countP (·.isPunct bracket.closing)

instance (bracket : Bracket) (tokens : List Token) : Decidable (EquallyOften bracket tokens) :=
  inferInstanceAs (Decidable (_ = _))

/-- Counted from the cursor, the marks of the bracket come equally often at a later token for the first time. -/
structure EndsGroup (bracket : Bracket) (tokens : List Token) (cursor stop : Nat) : Prop where
  later : cursor < stop
  within : stop < tokens.length
  even : EquallyOften bracket (tokens.extract cursor (stop + 1))
  first : ∀ place < stop, cursor < place → ¬EquallyOften bracket (tokens.extract cursor (place + 1))

/-- With so many groups open inside of one, the token at the place is the first to close that one. -/
structure Settles (bracket : Bracket) (depth : Nat) (tokens : List Token) (size : Nat) : Prop where
  within : size < tokens.length
  even : (tokens.take (size + 1)).countP bracket.opens + depth + 1 = (tokens.take (size + 1)).countP bracket.closes
  first : ∀ place < size,
    (tokens.take (place + 1)).countP bracket.opens + depth + 1 ≠ (tokens.take (place + 1)).countP bracket.closes

theorem settles_zero : Settles bracket depth (token :: rest) 0 ↔ bracket.closes token = true ∧ depth = 0 := by
  have hone : ([token].countP bracket.opens + depth + 1 = [token].countP bracket.closes) ↔
      bracket.closes token = true ∧ depth = 0 := by
    by_cases hcloses : bracket.closes token = true
    · simp [hcloses, Bracket.opens_eq_false_of_closes hcloses]
    · simp [List.countP_cons, hcloses]
  constructor
  · intro h
    exact hone.1 h.even
  · intro h
    exact ⟨Nat.succ_pos _, hone.2 h, fun place hplace => absurd hplace (Nat.not_lt_zero place)⟩

/-- A token that does not close the group is gone past, with the number of groups that are open behind it. -/
theorem settles_succ (hopen : ¬(bracket.closes token = true ∧ depth = 0))
    (hchange : [token].countP bracket.opens + depth = deeper + [token].countP bracket.closes) :
    Settles bracket depth (token :: rest) (size + 1) ↔ Settles bracket deeper rest size := by
  have hcount (place : Nat) :
      (((token :: rest).take (place + 1 + 1)).countP bracket.opens + depth + 1 =
        ((token :: rest).take (place + 1 + 1)).countP bracket.closes) ↔
      ((rest.take (place + 1)).countP bracket.opens + deeper + 1 = (rest.take (place + 1)).countP bracket.closes) := by
    rw [List.take_succ_cons, ← List.singleton_append, List.countP_append, List.countP_append]
    omega
  constructor
  · rintro ⟨hwithin, heven, hfirst⟩
    refine ⟨Nat.lt_of_succ_lt_succ hwithin, (hcount size).1 heven, fun place hplace heq => ?_⟩
    exact hfirst (place + 1) (Nat.succ_lt_succ hplace) ((hcount place).2 heq)
  · rintro ⟨hwithin, heven, hfirst⟩
    refine ⟨Nat.succ_lt_succ hwithin, (hcount size).2 heven, fun place hplace heq => ?_⟩
    cases place with
    | zero => exact hopen (settles_zero.1 ⟨Nat.succ_pos _, heq, fun _ h => absurd h (Nat.not_lt_zero _)⟩)
    | succ place => exact hfirst place (Nat.lt_of_succ_lt_succ hplace) ((hcount place).1 heq)

/-- What follows a token that does not close the group is searched with the depth that the token leaves. -/
theorem groupFrom?_past (hopen : ¬(bracket.closes token = true ∧ depth = 0))
    (hchange : [token].countP bracket.opens + depth = deeper + [token].countP bracket.closes) :
    groupFrom? bracket depth (token :: rest) =
      (groupFrom? bracket deeper rest).map fun found => (token :: found.1, found.2) := by
  rw [List.countP_singleton, List.countP_singleton] at hchange
  rw [groupFrom?]
  by_cases hopens : bracket.opens token = true
  · have hcloses : bracket.closes token = false := Bracket.closes_eq_false_of_opens hopens
    obtain rfl : deeper = depth + 1 := by
      simp only [hopens, hcloses, if_true, Bool.false_eq_true, if_false] at hchange
      omega
    rw [if_pos hopens]
  · rw [if_neg hopens]
    by_cases hcloses : bracket.closes token = true
    · have hdepth : depth ≠ 0 := fun hzero => hopen ⟨hcloses, hzero⟩
      obtain rfl : deeper = depth - 1 := by
        simp [hopens, hcloses] at hchange
        omega
      rw [if_pos hcloses, if_neg hdepth]
    · obtain rfl : depth = deeper := by simpa [hopens, hcloses] using hchange
      rw [if_neg hcloses]

/-- A token that does not close the group leaves a depth. -/
theorem exists_deeper (hopen : ¬(bracket.closes token = true ∧ depth = 0)) :
    ∃ deeper, [token].countP bracket.opens + depth = deeper + [token].countP bracket.closes := by
  by_cases hcloses : bracket.closes token = true
  · have hdepth : depth ≠ 0 := fun hzero => hopen ⟨hcloses, hzero⟩
    refine ⟨[token].countP bracket.opens + depth - 1, ?_⟩
    simp only [List.countP_singleton, hcloses, if_true]
    omega
  · exact ⟨[token].countP bracket.opens + depth, by simp [hcloses]⟩

theorem groupFrom?_eq_some_iff :
    groupFrom? bracket depth tokens = some (inside, after) ↔
      ∃ size, Settles bracket depth tokens size ∧ inside = tokens.take size ∧ after = tokens.drop (size + 1) := by
  induction tokens generalizing depth inside with
  | nil =>
    constructor
    · intro h
      exact absurd h (by simp [groupFrom?])
    · rintro ⟨size, hsettles, -, -⟩
      exact absurd hsettles.within (Nat.not_lt_zero size)
  | cons token rest ih =>
    by_cases hend : bracket.closes token = true ∧ depth = 0
    · obtain ⟨hcloses, hdepth⟩ := hend
      have hopens : bracket.opens token = false := Bracket.opens_eq_false_of_closes hcloses
      rw [groupFrom?, if_neg (by simp [hopens]), if_pos hcloses, if_pos hdepth]
      constructor
      · intro h
        obtain ⟨rfl, rfl⟩ := Prod.mk.inj (Option.some.inj h)
        exact ⟨0, settles_zero.2 ⟨hcloses, hdepth⟩, rfl, rfl⟩
      · rintro ⟨size, hsettles, rfl, rfl⟩
        cases size with
        | zero => rfl
        | succ size => exact absurd (settles_zero.2 ⟨hcloses, hdepth⟩).even (hsettles.first 0 (Nat.succ_pos size))
    · obtain ⟨deeper, hchange⟩ := exists_deeper hend
      rw [groupFrom?_past hend hchange]
      constructor
      · intro h
        obtain ⟨⟨inner, tail⟩, hinner, heq⟩ := Option.map_eq_some_iff.1 h
        obtain ⟨rfl, rfl⟩ := Prod.mk.inj heq
        obtain ⟨size, hsettles, rfl, rfl⟩ := ih.1 hinner
        exact ⟨size + 1, (settles_succ hend hchange).2 hsettles, rfl, rfl⟩
      · rintro ⟨size, hsettles, rfl, rfl⟩
        cases size with
        | zero => exact absurd (settles_zero.1 hsettles) hend
        | succ size =>
          rw [ih.2 ⟨size, (settles_succ hend hchange).1 hsettles, rfl, rfl⟩]
          rfl

/-! ### The end, counted from the opening mark -/

theorem equallyOften_cons_iff (hopens : bracket.opens opening = true) (front : List Token) :
    EquallyOften bracket (opening :: front) ↔
      front.countP bracket.opens + 0 + 1 = front.countP bracket.closes := by
  have hopening : opening.isPunct bracket.opening = true := hopens
  have hclosing : opening.isPunct bracket.closing = false := Bracket.closes_eq_false_of_opens hopens
  rw [EquallyOften, List.countP_cons, List.countP_cons, hopening, hclosing]
  rfl

theorem endsGroup_iff (hcursor : tokens.drop cursor = opening :: rest) (hopens : bracket.opens opening = true)
    {stop : Nat} :
    EndsGroup bracket tokens cursor stop ↔ ∃ size, stop = cursor + 1 + size ∧ Settles bracket 0 rest size := by
  have hlength : tokens.length = cursor + 1 + rest.length := by
    have hdrop := congrArg List.length hcursor
    rw [List.length_drop, List.length_cons] at hdrop
    omega
  have heven (size : Nat) : EquallyOften bracket (tokens.extract cursor (cursor + 1 + size + 1)) ↔
      (rest.take (size + 1)).countP bracket.opens + 0 + 1 = (rest.take (size + 1)).countP bracket.closes := by
    have hsize : cursor + 1 + size + 1 - cursor = size + 1 + 1 := by omega
    rw [List.extract_eq_take_drop, hcursor, hsize, List.take_succ_cons, equallyOften_cons_iff hopens]
  constructor
  · rintro ⟨hlater, hwithin, hhere, hfirst⟩
    obtain ⟨size, rfl⟩ : ∃ size, stop = cursor + 1 + size := ⟨stop - (cursor + 1), by omega⟩
    refine ⟨size, rfl, by omega, (heven size).1 hhere, fun place hplace heq => ?_⟩
    exact hfirst (cursor + 1 + place) (by omega) (by omega) ((heven place).2 heq)
  · rintro ⟨size, rfl, hwithin, hhere, hfirst⟩
    refine ⟨by omega, by omega, (heven size).2 hhere, fun place hplace hlater heq => ?_⟩
    obtain ⟨before, rfl⟩ : ∃ before, place = cursor + 1 + before := ⟨place - (cursor + 1), by omega⟩
    exact hfirst before (by omega) ((heven before).1 heq)

/-- The group at the cursor goes up to the token at which the marks of its bracket come equally often. -/
theorem group?_eq_some_iff (hcursor : tokens.drop cursor = opening :: rest) (hopens : bracket.opens opening = true) :
    group? bracket (tokens.drop cursor).tail = some (inside, after) ↔
      ∃ stop, EndsGroup bracket tokens cursor stop ∧ inside = tokens.extract (cursor + 1) stop ∧
        after = tokens.drop (stop + 1) := by
  have hrest : rest = tokens.drop (cursor + 1) := by
    rw [← List.tail_drop, hcursor, List.tail_cons]
  have hinside (size : Nat) : rest.take size = tokens.extract (cursor + 1) (cursor + 1 + size) := by
    rw [List.extract_eq_take_drop, hrest, Nat.add_sub_cancel_left]
  have hafter (size : Nat) : rest.drop (size + 1) = tokens.drop (cursor + 1 + size + 1) := by
    rw [hrest, List.drop_drop, Nat.add_assoc (cursor + 1)]
  rw [hcursor, List.tail_cons, group?, groupFrom?_eq_some_iff]
  constructor
  · rintro ⟨size, hsettles, rfl, rfl⟩
    exact ⟨_, (endsGroup_iff hcursor hopens).2 ⟨size, rfl, hsettles⟩, hinside size, hafter size⟩
  · rintro ⟨stop, hends, rfl, rfl⟩
    obtain ⟨size, rfl, hsettles⟩ := (endsGroup_iff hcursor hopens).1 hends
    exact ⟨size, hsettles, (hinside size).symm, (hafter size).symm⟩

/-! ### Tokens that do not count -/

theorem groupFrom?_filter {keeps : Token → Bool}
    (hkeeps : ∀ token, keeps token = false → bracket.opens token = false ∧ bracket.closes token = false)
    (depth : Nat) (tokens : List Token) :
    groupFrom? bracket depth (tokens.filter keeps) =
      (groupFrom? bracket depth tokens).map fun found => (found.1.filter keeps, found.2.filter keeps) := by
  induction tokens generalizing depth with
  | nil => rfl
  | cons token rest ih =>
    cases hkept : keeps token with
    | true =>
      rw [List.filter_cons_of_pos hkept]
      unfold groupFrom?
      split
      · simp [ih, hkept, Function.comp_def]
      · split
        · split
          · rfl
          · simp [ih, hkept, Function.comp_def]
        · simp [ih, hkept, Function.comp_def]
    | false =>
      obtain ⟨hopens, hcloses⟩ := hkeeps token hkept
      rw [List.filter_cons_of_neg (by simp [hkept]), ih]
      simp [groupFrom?, hopens, hcloses, hkept, Function.comp_def]

/-- Tokens that are no marks of the bracket may be taken out: the group ends where it did. -/
theorem enclosed_filter {keeps : Token → Bool}
    (hkeeps : ∀ token, keeps token = false → bracket.opens token = false ∧ bracket.closes token = false)
    (hopens : bracket.opens opening = true) (enclosure : Enclosure) (line : Nat) (rest : List Token) :
    enclosed bracket enclosure line ((opening :: rest).filter keeps) =
      (enclosed bracket enclosure line (opening :: rest)).map fun found =>
        (found.1.filter keeps, found.2.filter keeps) := by
  have hkept : keeps opening = true := by
    by_contra hout
    rw [Bool.not_eq_true] at hout
    exact absurd hopens (by simp [(hkeeps opening hout).1])
  rw [List.filter_cons_of_pos hkept]
  simp only [enclosed, List.tail_cons, group?, groupFrom?_filter hkeeps]
  cases groupFrom? bracket 0 rest <;> rfl

/-- Punctuation other than the two arrows. -/
def countsAsMark (token : Token) : Bool :=
  token.kind == .punct && token.text != "->" && token.text != "=>"

theorem not_mark_of_countsAsMark (h : countsAsMark token = false) :
    bracket.opens token = false ∧ bracket.closes token = false := by
  have hmark (text : String) (harrow : text ≠ "->" ∧ text ≠ "=>") : token.isPunct text = false := by
    by_contra hpunct
    rw [Bool.not_eq_false] at hpunct
    obtain ⟨hkind, rfl⟩ := Token.isPunct_iff.1 hpunct
    simp [countsAsMark, hkind, harrow] at h
  cases bracket <;> exact ⟨hmark _ (by decide), hmark _ (by decide)⟩

/-! ### The group at a cursor -/

/-- Exactly where a later token is the first one at which, counted from the cursor, the marks of the bracket there come
equally often, the group is read: what stands between, and all behind that token. Otherwise it is refused on the line
of the token that it is blamed on. So an inside in which some kinds of brackets are nested, this one among them, is read
whole, whatever comes behind it, and of literals, words and arrows the reading takes no note. -/
theorem enclosed_matches (enclosure : Enclosure) (start : Token) (hcursor : tokens[cursor]? = some opening)
    (hopens : bracket.opens opening = true) :
    (∀ inside after, enclosed bracket enclosure start.line (tokens.drop cursor) = .ok (inside, after) ↔
      ∃ stop, EndsGroup bracket tokens cursor stop ∧ inside = tokens.extract (cursor + 1) stop ∧
        after = tokens.drop (stop + 1)) ∧
    (enclosed bracket enclosure start.line (tokens.drop cursor) = .error ⟨.openEnclosure enclosure, start.line⟩ ↔
      ¬∃ stop, EndsGroup bracket tokens cursor stop) ∧
    (∀ among inside closing rest, tokens.drop cursor = opening :: (inside ++ closing :: rest) → bracket ∈ among →
      Nested among anywhere inside → bracket.closes closing = true →
        enclosed bracket enclosure start.line (tokens.drop cursor) = .ok (inside, rest)) ∧
    enclosed bracket enclosure start.line ((tokens.drop cursor).filter countsAsMark) =
      (enclosed bracket enclosure start.line (tokens.drop cursor)).map fun found =>
        (found.1.filter countsAsMark, found.2.filter countsAsMark) := by
  obtain ⟨rest, hdrop⟩ : ∃ rest, tokens.drop cursor = opening :: rest := by
    obtain ⟨hwithin, heq⟩ := List.getElem?_eq_some_iff.1 hcursor
    exact ⟨tokens.drop (cursor + 1), by rw [List.drop_eq_getElem_cons hwithin, heq]⟩
  have hfound (inside after : List Token) : group? bracket (tokens.drop cursor).tail = some (inside, after) ↔
      ∃ stop, EndsGroup bracket tokens cursor stop ∧ inside = tokens.extract (cursor + 1) stop ∧
        after = tokens.drop (stop + 1) := group?_eq_some_iff hdrop hopens
  refine ⟨fun inside after => ?_, ?_, fun among inside closing rest hwhole hmem hnested hcloses => ?_, ?_⟩
  · rw [← hfound, enclosed]
    cases group? bracket (tokens.drop cursor).tail <;> simp [Prod.ext_iff]
  · rw [enclosed]
    cases hgroup : group? bracket (tokens.drop cursor).tail with
    | none =>
      refine iff_of_true rfl ?_
      rintro ⟨stop, hends⟩
      rw [(hfound _ _).2 ⟨stop, hends, rfl, rfl⟩] at hgroup
      exact absurd hgroup (by simp)
    | some found =>
      refine iff_of_false (by simp) ?_
      obtain ⟨stop, hends, -, -⟩ := (hfound found.1 found.2).1 hgroup
      exact not_not_intro ⟨stop, hends⟩
  · rw [hwhole]
    exact enclosed_of_nested hnested hmem hcloses enclosure start.line rest
  · rw [hdrop]
    exact enclosed_filter (fun token => not_mark_of_countsAsMark) hopens enclosure start.line rest

namespace Sample

/-- A group with another one in it, a bracket of another kind that is left open, a literal and an arrow. -/
def crowded : List Token :=
  [word "f", mark "(", word "a", mark "[", mark "(", mark ")", ⟨.string, "\"(\"", 1⟩, mark "->", mark ")", word "x"]

end Sample

open Sample

theorem enclosed_matches_crowded :
    crowded[1]? = some (mark "(") ∧ Bracket.paren.opens (mark "(") = true ∧ EndsGroup .paren crowded 1 8 ∧
      enclosed .paren (.group .paren) (word "f").line (crowded.drop 1) =
        .ok ([word "a", mark "[", mark "(", mark ")", ⟨.string, "\"(\"", 1⟩, mark "->"], [word "x"]) := by
  have hends : EndsGroup .paren crowded 1 8 := ⟨by decide, by decide, by decide, by decide⟩
  have hcursor : crowded[1]? = some (mark "(") := rfl
  have hopens : Bracket.paren.opens (mark "(") = true := by decide
  obtain ⟨hfound, -⟩ := enclosed_matches (.group .paren) (word "f") hcursor hopens
  exact ⟨hcursor, hopens, hends, (hfound _ _).2 ⟨8, hends, rfl, rfl⟩⟩

end FfiBindings.Rust
