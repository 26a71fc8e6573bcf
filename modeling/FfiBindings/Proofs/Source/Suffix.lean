import FfiBindings.Proofs.Path
import FfiBindings.Proofs.Source.Module

/-!
Source suffixes and languages. The scan compares the lower case of a whole name with a suffix, the choice of a
language the lower case of the suffix by itself, and lower case depends on what stands around a letter. No letter
but those of the suffix is lowered to one of them (`lowerChar_of_mem`), so the two agree on every name that has
more than the suffix (`choose?_of_hasSuffix`).
-/

set_option autoImplicit false
set_option relaxedAutoImplicit false

namespace FfiBindings

namespace Text

/-- A letter of the source suffix. -/
def IsSuffixLetter (x : Char) : Prop :=
  x = '.' ∨ x = 'r' ∨ x = 's'

theorem IsSuffixLetter.toNat {x : Char} (hx : IsSuffixLetter x) :
    x.toNat = 46 ∨ x.toNat = 114 ∨ x.toNat = 115 := by
  rcases hx with rfl | rfl | rfl <;> decide

/-- Beyond ASCII nothing but the Kelvin sign is lowered to a letter that comes so early. -/
theorem lowerRuns_shift : lowerRuns.all (fun run => 115 < (run.first : Int) + run.shift ||
    (run.first == 8490 && run.last == 8490 && run.shift == -8383)) = true := by
  decide +kernel

theorem toNat_ofNat_cases (n : Nat) : (Char.ofNat n).toNat = n ∨ (Char.ofNat n).toNat = 0 := by
  by_cases h : n.isValidChar
  · rw [Char.ofNat, dif_pos h]
    exact .inl rfl
  · rw [Char.ofNat, dif_neg h]
    exact .inr rfl

/-- What is lowered to a letter of the suffix is an ASCII letter, and lowered to nothing else. -/
theorem lowerChar_of_mem {c x : Char} (hx : IsSuffixLetter x) (h : x ∈ lowerChar c) :
    c.toNat < 128 ∧ lowerChar c = [x] := by
  have hcode := hx.toNat
  unfold lowerChar at h ⊢
  split at h
  · rename_i hascii
    rw [if_pos hascii, List.mem_singleton.1 h]
    exact ⟨hascii, rfl⟩
  · rename_i hbeyond
    exfalso
    split at h
    · rcases hx with rfl | rfl | rfl <;> exact absurd h (by decide)
    · split at h
      · rename_i run hrun
        have hcontains := List.find?_some hrun
        have hshift := List.all_eq_true.1 lowerRuns_shift run (List.mem_of_find?_eq_some hrun)
        simp only [LowerRun.contains, Bool.and_eq_true, decide_eq_true_eq] at hcontains
        simp only [Bool.or_eq_true, Bool.and_eq_true, decide_eq_true_eq, beq_iff_eq] at hshift
        have hlowered := toNat_ofNat_cases ((c.toNat : Int) + run.shift).toNat
        rw [← List.mem_singleton.1 h] at hlowered
        omega
      · rw [List.mem_singleton.1 h] at hcode
        omega

theorem lowerChar_of_ascii {c : Char} (h : c.toNat < 128) : lowerChar c = [c.toLower] := by
  rw [lowerChar, if_pos h]

/-- Among the ASCII letters the dot alone is lowered to a dot. -/
theorem eq_dot_of_lowerChar {c : Char} (h : c.toNat < 128) (hc : lowerChar c = ['.']) : c = '.' := by
  have hall : ∀ code < 128, (Char.ofNat code).toLower = '.' → Char.ofNat code = '.' := by decide
  rw [lowerChar_of_ascii h, List.cons.injEq] at hc
  have hdot := hall c.toNat h
  rw [Char.ofNat_toNat] at hdot
  exact hdot hc.1

theorem lowerChar_ne_nil (c : Char) : lowerChar c ≠ [] := by
  unfold lowerChar
  split
  · simp
  · split
    · simp
    · split <;> simp

/-- A letter of the suffix in a lowered text stands for one letter of the text; what follows it is lowered behind
that letter, and what comes before it before. -/
theorem lowerAfter_split {x : Char} (hx : IsSuffixLetter x) {before text front tail : List Char}
    (h : lowerAfter before text = front ++ x :: tail) :
    ∃ head c rest, text = head ++ c :: rest ∧ c.toNat < 128 ∧ lowerChar c = [x] ∧
      (head = [] ↔ front = []) ∧ ∃ behind, lowerAfter behind rest = tail := by
  induction text generalizing before front with
  | nil => exact absurd h (by simp [lowerAfter])
  | cons c text ih =>
    rw [lowerAfter] at h
    -- a capital sigma is lowered by its neighbours, but never to one of these letters
    generalize hlowered : (if c = 'Σ' then (if casedNext before && !casedNext text then ['ς'] else ['σ'])
      else lowerChar c) = lowered at h
    have hne : lowered ≠ [] := by
      rw [← hlowered]
      split
      · split <;> simp
      · exact lowerChar_ne_nil c
    have hletter (hmem : x ∈ lowered) : c.toNat < 128 ∧ lowerChar c = [x] ∧ lowered = [x] := by
      rw [← hlowered] at hmem ⊢
      split at hmem
      · exfalso
        split at hmem <;> rcases hx with rfl | rfl | rfl <;> exact absurd hmem (by decide)
      · rename_i hsigma
        obtain ⟨hascii, hsingle⟩ := lowerChar_of_mem hx hmem
        exact ⟨hascii, hsingle, by rw [if_neg hsigma, hsingle]⟩
    have hlater {between : List Char} (hfront : front ≠ [])
        (hrest : lowerAfter (c :: before) text = between ++ x :: tail) :
        ∃ head d rest, c :: text = head ++ d :: rest ∧ d.toNat < 128 ∧ lowerChar d = [x] ∧
          (head = [] ↔ front = []) ∧ ∃ behind, lowerAfter behind rest = tail := by
      obtain ⟨head, d, rest, rfl, hascii, hsingle, -, hbehind⟩ := ih hrest
      exact ⟨c :: head, d, rest, rfl, hascii, hsingle, by simp [hfront], hbehind⟩
    rcases List.append_eq_append_iff.1 h with ⟨between, rfl, hrest⟩ | ⟨within, hsplit, hrest⟩
    · exact hlater (List.append_ne_nil_of_left_ne_nil hne between) hrest
    · cases within with
      | nil =>
        rw [List.append_nil] at hsplit
        have hnext : lowerAfter (c :: before) text = [] ++ x :: tail := hrest.symm
        exact hlater (hsplit ▸ hne) hnext
      | cons y within =>
        obtain ⟨rfl, rfl⟩ := List.cons.inj hrest
        obtain ⟨hascii, hsingle, hwhole⟩ := hletter (by rw [hsplit]; simp)
        rw [hsplit] at hwhole
        obtain ⟨rfl, rfl⟩ : front = [] ∧ within = [] := by
          cases front with
          | nil => exact ⟨rfl, by simpa using hwhole⟩
          | cons z front => exact absurd hwhole (by simp)
        exact ⟨[], c, text, rfl, hascii, hsingle, Iff.rfl, c :: before, rfl⟩

theorem lowerAfter_eq_nil {before text : List Char} (h : lowerAfter before text = []) : text = [] := by
  cases text with
  | nil => rfl
  | cons c text =>
    rw [lowerAfter, List.append_eq_nil_iff] at h
    have hnone := h.1
    split at hnone
    · split at hnone <;> exact absurd hnone (by simp)
    · exact absurd hnone (lowerChar_ne_nil c)

/-- A text that is lowered to one that ends as a source does ends in three letters that are lowered so. -/
theorem suffix_of_lower {text front : List Char} (h : lowerAfter [] text = front ++ ['.', 'r', 's']) :
    ∃ head a b c, text = head ++ [a, b, c] ∧ (head = [] ↔ front = []) ∧
      (a.toNat < 128 ∧ lowerChar a = ['.']) ∧ (b.toNat < 128 ∧ lowerChar b = ['r']) ∧
      c.toNat < 128 ∧ lowerChar c = ['s'] := by
  obtain ⟨head, a, rest, rfl, hascii, ha, hhead, behind, hrest⟩ := lowerAfter_split (.inl rfl) h
  have hrs : lowerAfter behind rest = [] ++ 'r' :: ['s'] := hrest
  obtain ⟨between, b, last, rfl, hasciiB, hb, hbetween, behind, hlast⟩ := lowerAfter_split (.inr (.inl rfl)) hrs
  obtain rfl := hbetween.2 rfl
  have hs : lowerAfter behind last = [] ++ 's' :: [] := hlast
  obtain ⟨between, c, none, rfl, hasciiC, hc, hbetween, behind, hnone⟩ := lowerAfter_split (.inr (.inr rfl)) hs
  obtain rfl := hbetween.2 rfl
  obtain rfl := lowerAfter_eq_nil hnone
  exact ⟨head, a, b, c, rfl, hhead, ⟨hascii, ha⟩, ⟨hasciiB, hb⟩, hasciiC, hc⟩

end Text

/-- A file name that has a source suffix and more is one that a language is there for. -/
theorem choose?_of_hasSuffix {excluded : List String} {path : Path}
    (h : (Selection.of (Language.all.flatMap Language.suffixes) excluded).hasSuffix path.name = true)
    (hstem : Text.lower path.name ≠ ".rs") : Language.choose? Language.all path = some .rust := by
  have hsuffixes : (Language.all.flatMap Language.suffixes).map Text.lower = [".rs"] := by decide
  rw [Selection.hasSuffix, Selection.of, hsuffixes, List.any_cons, List.any_nil, Bool.or_false] at h
  obtain ⟨front, hfront⟩ : ['.', 'r', 's'] <:+ (Text.lower path.name).toList := List.isSuffixOf_iff_suffix.1 h
  rw [Text.lower, String.toList_ofList] at hfront
  obtain ⟨head, a, b, c, hname, hhead, ⟨hasciiA, ha⟩, ⟨hasciiB, hb⟩, hasciiC, hc⟩ :=
    Text.suffix_of_lower hfront.symm
  have hmore : head ≠ [] := by
    intro hnil
    refine hstem ?_
    rw [Text.lower, ← hfront, hhead.1 hnil]
    rfl
  obtain rfl := Text.eq_dot_of_lowerChar hasciiA ha
  have hneB : b ≠ '.' := by
    rintro rfl
    exact absurd hb (by decide)
  have hneC : c ≠ '.' := by
    rintro rfl
    exact absurd hc (by decide)
  have hsuffix : path.suffix = .ofList ['.', b, c] := by
    rw [Path.suffix, hname, Path.splitSuffix_of_dot (by simp [hneB.symm, hneC.symm]), if_neg (by simp [hmore])]
  have hsigma {d : Char} (hascii : d.toNat < 128) : d ≠ 'Σ' := by
    rintro rfl
    exact absurd hascii (by decide)
  have hlower : Text.lower path.suffix = ".rs" := by
    rw [hsuffix, Text.lower, String.toList_ofList]
    simp only [Text.lowerAfter, if_neg (hsigma hasciiA), if_neg (hsigma hasciiB), if_neg (hsigma hasciiC),
      ha, hb, hc]
    rfl
  rw [Language.choose?, Language.all, List.find?_cons_of_pos]
  rw [Language.supports, hlower]
  decide

end FfiBindings
