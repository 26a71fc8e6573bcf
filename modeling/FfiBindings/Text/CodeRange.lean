/-!
Classes of characters as unions of closed ranges of code points. The tables of this library list
their ranges in increasing order; membership does not depend on that order, so `mem_iff` speaks of
the union alone.
-/

set_option autoImplicit false
set_option relaxedAutoImplicit false

namespace FfiBindings.Text

/-- The code points from `first` to `last`, both included. -/
structure CodeRange where
  first : Nat
  last : Nat
  deriving DecidableEq, Repr

namespace CodeRange

def contains (range : CodeRange) (code : Nat) : Bool :=
  range.first ≤ code && code ≤ range.last

/-- Reads a table written as a flat list of first and last code points. -/
def ofBounds : List Nat → List CodeRange
  | first :: last :: rest => ⟨first, last⟩ :: ofBounds rest
  | _ => []

/-- Whether some range of the table holds the character. -/
def mem (table : List CodeRange) (c : Char) : Bool :=
  table.any (·.contains c.toNat)

theorem mem_iff (table : List CodeRange) (c : Char) :
    mem table c = true ↔ ∃ range ∈ table, range.first ≤ c.toNat ∧ c.toNat ≤ range.last := by
  simp [mem, contains]

end CodeRange

end FfiBindings.Text
