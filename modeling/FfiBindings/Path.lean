import FfiBindings.Text.Quoted

/-!
File paths by their spelling. A path has an anchor and parts; empty parts and single dots are dropped
when a text is read, double dots are kept, and of several leading slashes only exactly two are kept as
two. The text of a path whose parts are such as reading gives is read as the same path
(`ofText_toText`).
-/

set_option autoImplicit false
set_option relaxedAutoImplicit false

namespace FfiBindings

/-- What a path starts from: the current directory, the root, or a root of two slashes. -/
inductive Anchor where
  | current
  | root
  | doubleRoot
  deriving DecidableEq, Repr

def Anchor.text : Anchor → String
  | .current => ""
  | .root => "/"
  | .doubleRoot => "//"

structure Path where
  anchor : Anchor
  parts : List String
  deriving DecidableEq, Repr

namespace Path

/-- The stretches between slashes. -/
def splitSlashes : List Char → List (List Char)
  | [] => [[]]
  | c :: rest =>
    if c = '/' then [] :: splitSlashes rest
    else
      match splitSlashes rest with
      | [] => [[c]]
      | part :: parts => (c :: part) :: parts

def isPart (part : List Char) : Bool :=
  !part.isEmpty && part != ['.']

def anchorOf : List Char → Anchor
  | '/' :: '/' :: '/' :: _ => .root
  | '/' :: '/' :: _ => .doubleRoot
  | '/' :: _ => .root
  | _ => .current

def ofText (text : String) : Path where
  anchor := anchorOf text.toList
  parts := ((splitSlashes text.toList).filter isPart).map .ofList

def toText (path : Path) : String :=
  if path.anchor = .current && path.parts.isEmpty then "."
  else path.anchor.text ++ "/".intercalate path.parts

/-- Whether reading can give the part. -/
def isPlainPart (part : String) : Bool :=
  isPart part.toList && !part.toList.contains '/'

theorem splitSlashes_of_not_mem {part : List Char} (h : '/' ∉ part) :
    splitSlashes part = [part] := by
  induction part with
  | nil => rfl
  | cons c part ih =>
    simp only [List.mem_cons, not_or] at h
    simp [splitSlashes, Ne.symm h.1, ih h.2]

theorem splitSlashes_append {part rest : List Char} (h : '/' ∉ part) :
    splitSlashes (part ++ '/' :: rest) = part :: splitSlashes rest := by
  induction part with
  | nil => simp [splitSlashes]
  | cons c part ih =>
    simp only [List.mem_cons, not_or] at h
    simp [splitSlashes, Ne.symm h.1, ih h.2]

theorem splitSlashes_intercalate {parts : List (List Char)} (hparts : parts ≠ [])
    (h : ∀ part ∈ parts, '/' ∉ part) : splitSlashes (['/'].intercalate parts) = parts := by
  induction parts with
  | nil => exact absurd rfl hparts
  | cons part parts ih =>
    cases parts with
    | nil => simpa [List.intercalate] using splitSlashes_of_not_mem (h part (by simp))
    | cons next parts =>
      have hrest := ih (by simp) fun other hother => h other (by simp [hother])
      have hsplit : ['/'].intercalate (part :: next :: parts) =
          part ++ '/' :: ['/'].intercalate (next :: parts) := by
        simp [List.intercalate]
      rw [hsplit, splitSlashes_append (h part (by simp)), hrest]

theorem isPlainPart_iff (part : String) :
    isPlainPart part = true ↔ isPart part.toList = true ∧ '/' ∉ part.toList := by
  simp [isPlainPart]

/-- Parts that reading can give bring no anchor of their own. -/
theorem anchorOf_intercalate {parts : List String}
    (h : ∀ part ∈ parts, isPlainPart part = true) :
    anchorOf ("/".intercalate parts).toList = .current := by
  cases parts with
  | nil => rfl
  | cons part parts =>
    obtain ⟨hpart, hslash⟩ := (isPlainPart_iff part).1 (h part (by simp))
    have hhead : ∃ c rest, ("/".intercalate (part :: parts)).toList = c :: rest ∧ c ≠ '/' := by
      cases hcs : part.toList with
      | nil => simp [isPart, hcs] at hpart
      | cons c cs =>
        have hc : c ≠ '/' := fun heq => hslash (by simp [hcs, heq])
        cases parts with
        | nil => exact ⟨c, cs, by simp [hcs], hc⟩
        | cons next parts => exact ⟨c, _, by simp [String.intercalate_cons_cons, hcs]; rfl, hc⟩
    obtain ⟨c, rest, heq, hc⟩ := hhead
    rw [heq]
    unfold anchorOf
    split <;> simp_all

theorem anchorOf_cons_slash {cs : List Char} (h : anchorOf cs = .current) :
    anchorOf ('/' :: cs) = .root ∧ anchorOf ('/' :: '/' :: cs) = .doubleRoot := by
  cases cs with
  | nil => exact ⟨rfl, rfl⟩
  | cons c cs =>
    have hc : c ≠ '/' := fun heq => by
      subst heq
      unfold anchorOf at h
      split at h <;> simp_all
    constructor
    · unfold anchorOf
      split <;> simp_all
    · unfold anchorOf
      split
      · simp_all
      · rfl
      · rename_i hno heq
        simp only [List.cons.injEq, true_and] at heq
        exact absurd heq.symm (hno _)
      · simp_all

/-- The parts in a text without an anchor. -/
theorem parts_intercalate {parts : List String} (h : ∀ part ∈ parts, isPlainPart part = true) :
    ((splitSlashes ("/".intercalate parts).toList).filter isPart).map String.ofList = parts := by
  by_cases hparts : parts = []
  · subst hparts
    rfl
  · have hslash : ∀ part ∈ parts.map String.toList, '/' ∉ part := by
      intro part hmem
      obtain ⟨text, htext, rfl⟩ := List.mem_map.1 hmem
      exact ((isPlainPart_iff text).1 (h text htext)).2
    have hall : ∀ part ∈ parts.map String.toList, isPart part = true := by
      intro part hmem
      obtain ⟨text, htext, rfl⟩ := List.mem_map.1 hmem
      exact ((isPlainPart_iff text).1 (h text htext)).1
    have hmark : "/".toList = ['/'] := rfl
    rw [String.toList_intercalate, hmark, splitSlashes_intercalate (by simpa using hparts) hslash,
      List.filter_eq_self.2 hall, List.map_map]
    simp [Function.comp_def]

theorem splitSlashes_cons_slash (cs : List Char) :
    (splitSlashes ('/' :: cs)).filter isPart = (splitSlashes cs).filter isPart := by
  simp [splitSlashes, isPart]

theorem ofText_toText {path : Path} (h : ∀ part ∈ path.parts, isPlainPart part = true) :
    ofText path.toText = path := by
  obtain ⟨anchor, parts⟩ := path
  have hanchor := anchorOf_intercalate h
  have hparts := parts_intercalate h
  obtain ⟨hroot, hdouble⟩ := anchorOf_cons_slash hanchor
  dsimp only at hanchor hparts hroot hdouble
  cases anchor with
  | current =>
    by_cases hempty : parts = []
    · subst hempty
      rfl
    · have htext : toText ⟨.current, parts⟩ = "/".intercalate parts := by
        simp [toText, hempty, Anchor.text]
      rw [htext, ofText, hanchor, hparts]
  | root =>
    have htext : (toText ⟨.root, parts⟩).toList = '/' :: ("/".intercalate parts).toList := by
      have hslash : Anchor.root.text.toList = ['/'] := by simp [Anchor.text]
      rw [toText, if_neg (by simp), String.toList_append, hslash, List.singleton_append]
    rw [ofText, htext, hroot, splitSlashes_cons_slash, hparts]
  | doubleRoot =>
    have htext :
        (toText ⟨.doubleRoot, parts⟩).toList = '/' :: '/' :: ("/".intercalate parts).toList := by
      have hslash : Anchor.doubleRoot.text.toList = ['/', '/'] := by simp [Anchor.text]
      rw [toText, if_neg (by simp), String.toList_append, hslash, List.cons_append,
        List.singleton_append]
    rw [ofText, htext, hdouble, splitSlashes_cons_slash, splitSlashes_cons_slash, hparts]

/-- The second path seen from the first; one that has an anchor stays what it is. -/
def join (path other : Path) : Path :=
  if other.anchor = .current then ⟨path.anchor, path.parts ++ other.parts⟩ else other

def joinText (path : Path) (text : String) : Path :=
  path.join (ofText text)

def child (path : Path) (name : String) : Path :=
  ⟨path.anchor, path.parts ++ [name]⟩

def parent (path : Path) : Path :=
  ⟨path.anchor, path.parts.dropLast⟩

/-- The last part, empty where there is none. -/
def name (path : Path) : String :=
  path.parts.getLast?.getD ""

/-- Cuts a file name before its last dot; a dot at either end of the name does not count. -/
def splitSuffix (name : List Char) : List Char × List Char :=
  let suffix := (name.reverse.takeWhile (· != '.')).reverse
  let before := name.take (name.length - suffix.length - 1)
  if suffix.isEmpty || before.isEmpty || suffix.length = name.length then (name, [])
  else (before, '.' :: suffix)

def stem (path : Path) : String :=
  .ofList (splitSuffix path.name.toList).1

def suffix (path : Path) : String :=
  .ofList (splitSuffix path.name.toList).2

/-- A path that does not lie below the other. -/
structure NotBelow where
  path : Path
  other : Path
  deriving DecidableEq, Repr

def NotBelow.message (error : NotBelow) : String :=
  s!"{Text.quoted error.path.toText} is not in the subpath of {Text.quoted error.other.toText} " ++
    "OR one path is relative and the other is absolute."

/-- The way from the other path down to this one, by spelling alone. -/
def relativeTo (path other : Path) : Except NotBelow Path :=
  if path.anchor = other.anchor && other.parts.isPrefixOf path.parts then
    .ok ⟨.current, path.parts.drop other.parts.length⟩
  else .error ⟨path, other⟩

/-- Follows the parts from a location; a double dot goes one up and stops at the root. -/
def walkUpAndDown : (location parts : List String) → List String
  | location, [] => location
  | location, part :: parts =>
    walkUpAndDown (if part = ".." then location.dropLast else location ++ [part]) parts

/-- The absolute path without double dots, from the given current directory. -/
def absolute (path : Path) (current : List String) : Path where
  anchor := .root
  parts := walkUpAndDown (if path.anchor = .current then current else []) path.parts

end Path

end FfiBindings
