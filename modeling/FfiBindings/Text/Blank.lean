/-!
Blank characters and stripping. A character is blank when Unicode gives it the bidirectional class of
a separator or the category of a space; the file, group, record and unit separators are blank, the
zero width space is not. Stripping leaves alone the texts that neither begin nor end with a blank
(`stripChars_eq_self_iff`).
-/

set_option autoImplicit false
set_option relaxedAutoImplicit false

namespace FfiBindings.Text

def isBlank (c : Char) : Bool :=
  let code := c.toNat
  (0x09 ≤ code && code ≤ 0x0d) || (0x1c ≤ code && code ≤ 0x20) || code == 0x85 || code == 0xa0 ||
    code == 0x1680 || (0x2000 ≤ code && code ≤ 0x200a) || code == 0x2028 || code == 0x2029 ||
    code == 0x202f || code == 0x205f || code == 0x3000

/-- The text without its leading and its trailing blanks. -/
def stripChars (s : List Char) : List Char :=
  ((s.dropWhile isBlank).reverse.dropWhile isBlank).reverse

def strip (s : String) : String :=
  .ofList (stripChars s.toList)

theorem dropWhile_eq_self_iff (p : Char → Bool) (s : List Char) :
    s.dropWhile p = s ↔ ∀ c, s.head? = some c → p c = false := by
  cases s with
  | nil => simp
  | cons a s =>
    by_cases ha : p a = true
    · have hne : s.dropWhile p ≠ a :: s := fun heq => by
        have hle := (List.dropWhile_sublist p (l := s)).length_le
        rw [heq] at hle
        exact absurd hle (by simp)
      simp [ha, hne]
    · simp [ha]

theorem stripChars_eq_self_iff (s : List Char) :
    stripChars s = s ↔
      (∀ c, s.head? = some c → isBlank c = false) ∧
        ∀ c, s.getLast? = some c → isBlank c = false := by
  rw [← dropWhile_eq_self_iff, ← List.head?_reverse, ← dropWhile_eq_self_iff]
  constructor
  · intro h
    have hlength := congrArg List.length h
    have hfront := (List.dropWhile_sublist isBlank (l := s)).length_le
    have hback := (List.dropWhile_sublist isBlank (l := (s.dropWhile isBlank).reverse)).length_le
    simp only [stripChars, List.length_reverse] at hlength hback
    have hdrop : s.dropWhile isBlank = s :=
      (List.dropWhile_suffix isBlank).eq_of_length (by omega)
    refine ⟨hdrop, ?_⟩
    have hreverse := congrArg List.reverse h
    rwa [stripChars, hdrop, List.reverse_reverse] at hreverse
  · rintro ⟨hfront, hback⟩
    rw [stripChars, hfront, hback, List.reverse_reverse]

/-- Whether nothing but blanks is in the text. -/
def allBlank (s : String) : Bool :=
  s.toList.all isBlank

end FfiBindings.Text
