import FfiBindings.Text.WordTable

/-!
The characters of words. A decimal digit of any script is a word character and carries a value, so a
word that may not begin with a digit is told from a numeral by its first character alone.
-/

set_option autoImplicit false
set_option relaxedAutoImplicit false

namespace FfiBindings.Text

def isDecimal (c : Char) : Bool :=
  if c.toNat < 128 then c.isDigit else CodeRange.mem decimalDigits c

def isWord (c : Char) : Bool :=
  if c.toNat < 128 then c.isAlphanum || c == '_'
  else CodeRange.mem decimalDigits c || CodeRange.mem letters c

theorem isWord_of_isDecimal {c : Char} (h : isDecimal c = true) : isWord c = true := by
  unfold isDecimal at h
  unfold isWord
  split at h <;> simp_all [Char.isAlphanum]

/-- Word characters that may begin a name. -/
def isWordStart (c : Char) : Bool :=
  isWord c && !isDecimal c

/-- The value of a decimal digit: its place in its row of ten. -/
def decimalValue? (c : Char) : Option Nat :=
  if c.toNat < 128 then
    if c.isDigit then some (c.toNat - '0'.toNat) else none
  else
    (decimalDigits.find? (·.contains c.toNat)).map fun range => (c.toNat - range.first) % 10

end FfiBindings.Text
