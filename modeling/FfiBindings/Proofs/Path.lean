import FfiBindings.Path
import Mathlib.Tactic.Common

/-!
Paths and their texts. Reading gives plain parts alone (`isPlainPart_of_mem_ofText`), so paths of such parts
are the same if their texts are (`eq_of_toText_eq`), and a text that begins with a dot and a slash is read as
what follows them, seen from the current directory (`ofText_dotSlash`). The stem of a name and its suffix
are the name (`stem_append_suffix`).
-/

set_option autoImplicit false
set_option relaxedAutoImplicit false

namespace FfiBindings.Path

variable {path other : Path} {part text : String}

/-! ### Reading -/

theorem notMem_splitSlashes {cs stretch : List Char} (h : stretch ∈ splitSlashes cs) : '/' ∉ stretch := by
  induction cs generalizing stretch with
  | nil =>
    rw [splitSlashes, List.mem_singleton] at h
    simp [h]
  | cons c cs ih =>
    rw [splitSlashes] at h
    split at h
    · rcases List.mem_cons.1 h with rfl | hrest
      · exact List.not_mem_nil
      · exact ih hrest
    · rename_i hc
      split at h
      · rw [List.mem_singleton] at h
        simp [h, Ne.symm hc]
      · rename_i front back hsplit
        rcases List.mem_cons.1 h with rfl | hrest
        · rw [List.mem_cons, not_or]
          exact ⟨Ne.symm hc, ih (hsplit ▸ List.mem_cons_self)⟩
        · exact ih (hsplit ▸ List.mem_cons_of_mem front hrest)

theorem isPlainPart_of_mem_ofText (h : part ∈ (ofText text).parts) : isPlainPart part = true := by
  rw [ofText, List.mem_map] at h
  obtain ⟨stretch, hstretch, rfl⟩ := h
  rw [List.mem_filter] at hstretch
  rw [isPlainPart_iff, String.toList_ofList]
  exact ⟨hstretch.2, notMem_splitSlashes hstretch.1⟩

theorem anchorOf_of_head {cs : List Char} (h : cs.head? ≠ some '/') : anchorOf cs = .current := by
  unfold anchorOf
  split <;> simp_all

/-- A text without a slash is read as a single part, if it is one. -/
theorem ofText_of_notMem (h : '/' ∉ text.toList) :
    ofText text = ⟨.current, if isPart text.toList = true then [text] else []⟩ := by
  have hanchor : anchorOf text.toList = .current := by
    refine anchorOf_of_head fun hhead => h ?_
    exact List.mem_of_mem_head? hhead
  rw [ofText, hanchor, splitSlashes_of_not_mem h]
  by_cases hpart : isPart text.toList = true
  · simp [hpart]
  · simp [hpart]

/-- What follows a dot and a slash is seen from the current directory. -/
theorem ofText_dotSlash (text : String) : ofText ("./" ++ text) = ⟨.current, (ofText text).parts⟩ := by
  have hchars : ("./" ++ text).toList = ['.'] ++ '/' :: text.toList := by
    rw [String.toList_append]
    rfl
  rw [ofText, hchars, splitSlashes_append (by simp)]
  have hdot : isPart ['.'] = false := rfl
  rw [List.filter_cons, hdot, if_neg (by simp), anchorOf_of_head (by simp)]
  rfl

theorem eq_of_toText_eq (hpath : ∀ part ∈ path.parts, isPlainPart part = true)
    (hother : ∀ part ∈ other.parts, isPlainPart part = true) (h : path.toText = other.toText) :
    path = other := by
  rw [← ofText_toText hpath, ← ofText_toText hother, h]

/-! ### Names -/

theorem splitSuffix_of_dot {before last : List Char} (hfree : '.' ∉ last) :
    splitSuffix (before ++ '.' :: last) =
      if last.isEmpty || before.isEmpty then (before ++ '.' :: last, []) else (before, '.' :: last) := by
  have hlast : ((before ++ '.' :: last).reverse.takeWhile (· != '.')).reverse = last := by
    rw [List.reverse_append, List.reverse_cons, List.append_assoc, List.singleton_append,
      List.takeWhile_append_of_pos, List.takeWhile_cons_of_neg (by simp), List.append_nil, List.reverse_reverse]
    intro c hc
    exact bne_iff_ne.2 fun heq => hfree (heq ▸ List.mem_reverse.1 hc)
  have hbefore : (before ++ '.' :: last).take ((before ++ '.' :: last).length - last.length - 1) = before := by
    have hlength : (before ++ '.' :: last).length - last.length - 1 = before.length := by
      rw [List.length_append, List.length_cons]
      omega
    rw [hlength, List.take_left]
  have hshort : last.length ≠ (before ++ '.' :: last).length := by
    rw [List.length_append, List.length_cons]
    omega
  simp only [splitSuffix, hlast, hbefore, hshort, decide_false, Bool.or_false]

/-- A name is cut before its last dot, where characters stand on both sides of it. -/
theorem splitSuffix_cases (name : List Char) :
    splitSuffix name = (name, []) ∨
      ∃ before last, before ≠ [] ∧ last ≠ [] ∧ '.' ∉ last ∧ name = before ++ '.' :: last ∧
        splitSuffix name = (before, '.' :: last) := by
  have hback := List.takeWhile_append_dropWhile (p := (· != '.')) (l := name.reverse)
  cases hrest : name.reverse.dropWhile (· != '.') with
  | nil =>
    refine .inl ?_
    rw [hrest, List.append_nil] at hback
    simp [splitSuffix, hback]
  | cons c front =>
    have hdot : c = '.' := by
      have hhead := List.head_dropWhile_not (p := (· != '.')) (l := name.reverse) (by rw [hrest]; simp)
      simpa [hrest] using hhead
    subst hdot
    have hfree : '.' ∉ (name.reverse.takeWhile (· != '.')).reverse := by
      intro hmem
      simpa using List.all_eq_true.1 List.all_takeWhile '.' (List.mem_reverse.1 hmem)
    have hname : name = front.reverse ++ '.' :: (name.reverse.takeWhile (· != '.')).reverse := by
      rw [hrest] at hback
      have hreverse := congrArg List.reverse hback
      simpa using hreverse.symm
    generalize (name.reverse.takeWhile (· != '.')).reverse = last at hfree hname
    rw [hname, splitSuffix_of_dot hfree]
    split
    · exact .inl rfl
    · rename_i hboth
      rw [Bool.or_eq_true, not_or, List.isEmpty_iff, List.isEmpty_iff] at hboth
      exact .inr ⟨front.reverse, last, hboth.2, hboth.1, hfree, rfl, rfl⟩

theorem splitSuffix_append (name : List Char) :
    (splitSuffix name).1 ++ (splitSuffix name).2 = name := by
  rcases splitSuffix_cases name with hwhole | ⟨before, last, -, -, -, hname, hcut⟩
  · rw [hwhole, List.append_nil]
  · rw [hcut, ← hname]

theorem splitSuffix_ne_nil {name : List Char} (h : name ≠ []) : (splitSuffix name).1 ≠ [] := by
  rcases splitSuffix_cases name with hwhole | ⟨before, last, hbefore, -, -, -, hcut⟩
  · rw [hwhole]
    exact h
  · rw [hcut]
    exact hbefore

theorem stem_append_suffix (path : Path) : path.stem ++ path.suffix = path.name := by
  rw [stem, suffix, ← String.ofList_append, splitSuffix_append, String.ofList_toList]

theorem name_child (path : Path) (name : String) : (path.child name).name = name := by
  rw [Path.name, child, List.getLast?_concat, Option.getD_some]

/-- The stem of a name that can be spelled has a character and no slash. -/
theorem stem_of_isPlainPart (h : isPlainPart path.name = true) :
    path.stem.toList ≠ [] ∧ '/' ∉ path.stem.toList := by
  obtain ⟨hpart, hslash⟩ := (isPlainPart_iff _).1 h
  rw [stem, String.toList_ofList]
  constructor
  · refine splitSuffix_ne_nil fun hnil => ?_
    rw [hnil] at hpart
    exact absurd hpart (by decide)
  · intro hmem
    refine hslash ?_
    rw [← splitSuffix_append path.name.toList]
    exact List.mem_append_left _ hmem

end FfiBindings.Path
