import FfiBindings.Decimal.Notation
import FfiBindings.Text.LowerCase
import FfiBindings.Text.Numeral

/-!
Reading floating-point numbers from free text: padding, a sign, digits with a point and an exponent, or
one of the words for infinity and for what is no number. Letter case does not matter.
-/

set_option autoImplicit false
set_option relaxedAutoImplicit false

namespace FfiBindings.Text.FloatNumeral

open Numeral (digits? digit? dropSign isPadding)

/-- Digits that may be missing: their value and count, and what follows them. -/
def optionalDigits (cs : List Char) : Option (Nat × Nat × List Char) :=
  match cs with
  | c :: _ => if (digit? 10 c).isSome then digits? 10 cs else some (0, 0, cs)
  | [] => some (0, 0, [])

/-- An exponent, zero where there is none. -/
def exponent? : List Char → Option (Int × List Char)
  | c :: rest =>
    if c = 'e' || c = 'E' then
      let (negative, cs) := dropSign rest
      (digits? 10 cs).map fun (value, _, rest) => (if negative then -(value : Int) else value, rest)
    else some (0, c :: rest)
  | [] => some (0, [])

/-- An unsigned number and what follows it. -/
def unsigned? (cs : List Char) : Option (Float × List Char) := do
  let (whole, wholeCount, rest) ← optionalDigits cs
  let (fraction, fractionCount, rest) ← match rest with
    | '.' :: rest => optionalDigits rest
    | rest => some (0, 0, rest)
  if wholeCount + fractionCount = 0 then none
  else
    let (exponent, rest) ← exponent? rest
    let digits := whole * Nat.pow 10 fractionCount + fraction
    some (Decimal.nearest digits (Nat.toDigits 10 digits).length (exponent - fractionCount), rest)

def word? (cs : List Char) : Option Float :=
  let word := String.ofList (cs.map Char.toLower)
  if word = "inf" || word = "infinity" then some (1.0 / 0.0)
  else if word = "nan" then some (0.0 / 0.0)
  else none

def read? (text : String) : Option Float :=
  let stripped := ((text.toList.dropWhile isPadding).reverse.dropWhile isPadding).reverse
  let (negative, cs) := dropSign stripped
  let magnitude? := match unsigned? cs with
    | some (x, []) => some x
    | some _ => none
    | none => word? cs
  magnitude?.map fun x => if negative then -x else x

end FfiBindings.Text.FloatNumeral
