import FfiBindings.Decimal.Shortest

/-!
Writing and reading floating-point numbers as text. How a number looks is a record of decisions: where
positional notation ends, and how an exponent and the special values are written.
-/

set_option autoImplicit false
set_option relaxedAutoImplicit false

namespace FfiBindings.Decimal

structure Notation where
  /-- The least and the greatest decimal exponent that are written positionally. -/
  positionalFrom : Int
  positionalTo : Int
  /-- The least count of digits of an exponent. -/
  exponentDigits : Nat
  infinity : String
  notANumber : String

namespace Notation

def padded (width n : Nat) : List Char :=
  let digits := Nat.toDigits 10 n
  List.replicate (width - digits.length) '0' ++ digits

/-- Drops trailing zeros, each of which raises the exponent. -/
def normalize : (fuel : Nat) → Expansion → Expansion
  | 0, d => d
  | fuel + 1, d =>
    if d.digits ≠ 0 && d.digits % 10 = 0 then normalize fuel ⟨d.digits / 10, d.exponent + 1⟩ else d

/-- A whole number keeps one zero after its point. -/
def positional (digits : List Char) (point : Int) : List Char :=
  if point ≤ 0 then '0' :: '.' :: List.replicate (-point).toNat '0' ++ digits
  else
    let whole := digits.take point.toNat
    let fraction := digits.drop point.toNat
    whole ++ List.replicate (point.toNat - whole.length) '0' ++
      '.' :: if fraction.isEmpty then ['0'] else fraction

def scientific (format : Notation) (digits : List Char) (exponent : Int) : List Char :=
  let mantissa := match digits with
    | [] => []
    | [d] => [d]
    | d :: rest => d :: '.' :: rest
  let sign := if exponent < 0 then '-' else '+'
  mantissa ++ 'e' :: sign :: padded format.exponentDigits exponent.natAbs

def finite (format : Notation) (d : Expansion) : List Char :=
  let d := normalize 20 d
  let digits := Nat.toDigits 10 d.digits
  let exponent := d.exponent + digits.length - 1
  if format.positionalFrom ≤ exponent && exponent ≤ format.positionalTo then
    positional digits (exponent + 1)
  else format.scientific digits exponent

/-- The fewest digits that read back as the number, in this notation. -/
def text (format : Notation) (x : Float) : String :=
  let bits := x.toBits
  let negative := bits.toNat / 0x8000000000000000 = 1
  let magnitude := bits.toNat % 0x8000000000000000
  let sign := if negative then "-" else ""
  if 0x7ff0000000000000 < magnitude then format.notANumber
  else if magnitude = 0x7ff0000000000000 then sign ++ format.infinity
  else if magnitude = 0 then sign ++ "0.0"
  else sign ++ .ofList (format.finite (Binary.ofBits magnitude.toUInt64).shortest)

end Notation

/-- The double nearest to `digits · 10 ^ exponent`, where `count` is the count of digits. Numbers far out
of range are settled without computing them. -/
def nearest (digits count : Nat) (exponent : Int) : Float :=
  if digits = 0 then 0.0
  else if 400 < exponent + count then 1.0 / 0.0
  else if exponent + count < -400 then 0.0
  else .ofScientific digits (exponent < 0) exponent.natAbs

end FfiBindings.Decimal
