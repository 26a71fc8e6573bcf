/-!
Glob patterns. `*` stands for any text, slashes included, `?` for any character, and a set in
brackets for one character in it, or, after `!`, for one character not in it. A closing bracket that
comes first in a set is a member, a hyphen between two members makes a range, a range that ends
before it begins is empty, and a bracket that is never closed stands for itself. A pattern matches
whole texts only.
-/

set_option autoImplicit false
set_option relaxedAutoImplicit false

namespace FfiBindings.Text

namespace Glob

/-- A member of a set. -/
inductive Member where
  | single (c : Char)
  | range (first last : Char)
  deriving DecidableEq, Repr

inductive Item where
  | text
  | character
  | literal (c : Char)
  | set (negated : Bool) (members : List Member)
  deriving DecidableEq, Repr

def Member.isEmpty : Member → Bool
  | .single _ => false
  | .range first last => last.toNat < first.toNat

def Member.contains : Member → Char → Bool
  | .single c, d => c == d
  | .range first last, d => first.toNat ≤ d.toNat && d.toNat ≤ last.toNat

/-- A hyphen with a character on either side joins them; the end of one range begins no other. -/
def members : List Char → List Member
  | a :: '-' :: b :: rest => .range a b :: members rest
  | a :: rest => .single a :: members rest
  | [] => []

/-- The set between two brackets. An exclamation mark negates it also where only empty ranges stand
before the mark; a range that the mark would have begun falls apart into its hyphen and its end. -/
def setItem : List Char → Item
  | '!' :: rest => .set true (members rest)
  | cs =>
    match (members cs).dropWhile Member.isEmpty with
    | .single '!' :: rest => .set true rest
    | .range '!' last :: rest => .set true (.single '-' :: .single last :: rest)
    | rest => .set false rest

/-- How many characters of a set come before the first that could close it. -/
def setLead : List Char → Nat
  | '!' :: ']' :: _ => 2
  | '!' :: _ => 1
  | ']' :: _ => 1
  | _ => 0

/-- What stands up to the closing bracket of a set, and what follows the bracket. -/
def closeSet? (cs : List Char) : Option (List Char × List Char) :=
  let size := setLead cs + ((cs.drop (setLead cs)).takeWhile (· != ']')).length
  match cs.drop size with
  | _ :: rest => some (cs.take size, rest)
  | [] => none

theorem closeSet?_length {cs inner rest : List Char} (h : closeSet? cs = some (inner, rest)) :
    rest.length < cs.length := by
  simp only [closeSet?] at h
  split at h
  · rename_i heq
    have := congrArg List.length heq
    simp only [List.length_drop, List.length_cons] at this
    obtain ⟨-, rfl⟩ := by simpa using h
    omega
  · contradiction

def items : List Char → List Item
  | [] => []
  | '*' :: rest => .text :: items rest
  | '?' :: rest => .character :: items rest
  | '[' :: rest =>
    match h : closeSet? rest with
    | some (inner, rest') =>
      have := closeSet?_length h
      setItem inner :: items rest'
    | none => .literal '[' :: items rest
  | c :: rest => .literal c :: items rest
termination_by cs => cs.length

/-- Whether a single character fits an item that stands for one. -/
def Item.accepts : Item → Char → Bool
  | .text, _ => false
  | .character, _ => true
  | .literal c, d => c == d
  | .set negated members, c => members.any (·.contains c) != negated

def matchItems : List Item → List Char → Bool
  | [], cs => cs.isEmpty
  | .text :: items, [] => matchItems items []
  | .text :: items, c :: cs => matchItems items (c :: cs) || matchItems (.text :: items) cs
  | _ :: _, [] => false
  | item :: items, c :: cs => item.accepts c && matchItems items cs
termination_by items cs => (items.length, cs.length)

end Glob

/-- Whether the pattern matches the whole text. -/
def globMatches (pattern text : String) : Bool :=
  Glob.matchItems (Glob.items pattern.toList) text.toList

end FfiBindings.Text
