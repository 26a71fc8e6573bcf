/-!
The shortest decimal that reads back as a binary number. A positive number m · 2^q stands for all reals
that are nearer to it than to its neighbours; of the decimals with the fewest digits in that interval
the one nearest to the number is taken.
-/

set_option autoImplicit false
set_option relaxedAutoImplicit false

namespace FfiBindings.Decimal

/-- A positive binary number `significand · 2 ^ exponent`. At a power of two the neighbour below is
half as far away as the one above. -/
structure Binary where
  significand : Nat
  exponent : Int
  isPowerBoundary : Bool

/-- The number `digits · 10 ^ exponent`. -/
structure Expansion where
  digits : Nat
  exponent : Int
  deriving DecidableEq, Repr

namespace Binary

/-- Factors that bring `x · 10 ^ e` and `y · 2 ^ (q - 2)` to a common unit. -/
def scales (e q : Int) : Nat × Nat :=
  (Nat.pow 10 e.toNat * Nat.pow 2 (2 - q).toNat, Nat.pow 10 (-e).toNat * Nat.pow 2 (q - 2).toNat)

/-- Whether a decimal stands for the number, its rounding included. -/
def contains (b : Binary) (d : Expansion) : Bool :=
  let (left, right) := scales d.exponent b.exponent
  let x := d.digits * left
  let low := (4 * b.significand - if b.isPowerBoundary then 1 else 2) * right
  let high := (4 * b.significand + 2) * right
  if b.significand % 2 = 0 then low ≤ x && x ≤ high else low < x && x < high

/-- How many digits stand before the point; not positive where zeros follow it. -/
def magnitude (b : Binary) : Int :=
  let whole := b.significand * Nat.pow 2 b.exponent.toNat / Nat.pow 2 (-b.exponent).toNat
  if whole ≠ 0 then (Nat.toDigits 10 whole).length
  else
    let size := Nat.pow 2 (-b.exponent).toNat
    let zeros := ((List.range 400).find? fun j => size ≤ b.significand * Nat.pow 10 (j + 1)).getD 0
    0 - Int.ofNat zeros

/-- The decimal with the given count of digits that stands for the number, if there is one: of two the
nearer. -/
def withDigits? (b : Binary) (magnitude : Int) (count : Nat) : Option Expansion :=
  let e := magnitude - count
  let (left, right) := scales e b.exponent
  let value := 4 * b.significand * right
  let below : Expansion := ⟨value / left, e⟩
  let above : Expansion := ⟨value / left + 1, e⟩
  match b.contains below, b.contains above with
  | true, true =>
    let remainder := value % left
    if 2 * remainder < left || (2 * remainder = left && below.digits % 2 = 0) then some below
    else some above
  | true, false => some below
  | false, true => some above
  | false, false => none

/-- Seventeen digits always suffice for a double. -/
def shortest (b : Binary) : Expansion :=
  let magnitude := b.magnitude
  let counts := (List.range 17).map (· + 1)
  (counts.findSome? (b.withDigits? magnitude)).getD ⟨0, 0⟩

end Binary

/-- The highest bit of a significand, which is not stored: there are fifty-two below it. -/
def implicitBit : Nat := 0x10000000000000

/-- The magnitude of a finite double that is not zero. -/
def Binary.ofBits (bits : UInt64) : Binary :=
  let fraction := bits.toNat % implicitBit
  let biased : Nat := bits.toNat / implicitBit % 0x800
  if biased = 0 then ⟨fraction, -1074, false⟩
  else ⟨implicitBit + fraction, Int.ofNat biased - 1075, fraction = 0 && 1 < biased⟩

end FfiBindings.Decimal
