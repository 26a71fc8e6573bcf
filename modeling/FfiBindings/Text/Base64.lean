/-!
Bytes written with sixty-four characters, three bytes as four characters. Characters that are none of
the sixty-four are passed over, but for the equals sign, which fills up the last four.
-/

set_option autoImplicit false
set_option relaxedAutoImplicit false

namespace FfiBindings.Text.Base64

/-- The six bits that a character stands for. -/
def digit? (c : Char) : Option Nat :=
  if 'A' ≤ c && c ≤ 'Z' then some (c.toNat - 'A'.toNat)
  else if 'a' ≤ c && c ≤ 'z' then some (c.toNat - 'a'.toNat + 26)
  else if c.isDigit then some (c.toNat - '0'.toNat + 52)
  else if c = '+' then some 62
  else if c = '/' then some 63
  else none

/-- The whole bytes in up to four digits. -/
def bytesOf : List Nat → List UInt8
  | a :: b :: rest =>
    (a * 4 + b / 16).toUInt8 ::
      match rest with
      | [] => []
      | c :: rest =>
        (b % 16 * 16 + c / 4).toUInt8 ::
          match rest with
          | [] => []
          | d :: _ => [(c % 4 * 64 + d).toUInt8]
  | _ => []

/-- Reads on after the digits of a group that is not complete and the equals signs after them. The
text ends where a group is filled up; otherwise it may not end inside of a group. -/
def readFrom (digits : List Nat) (signs : Nat) : List Char → Option (List UInt8)
  | [] => if digits.isEmpty then some [] else none
  | c :: rest =>
    if c = '=' then
      if digits.length < 2 then readFrom digits signs rest
      else if 4 ≤ digits.length + signs + 1 then some (bytesOf digits)
      else readFrom digits (signs + 1) rest
    else
      match digit? c with
      | none => readFrom digits signs rest
      | some d =>
        if digits.length = 3 then
          (readFrom [] 0 rest).map fun bytes => bytesOf (digits ++ [d]) ++ bytes
        else readFrom (digits ++ [d]) 0 rest

def read? (text : String) : Option (List UInt8) :=
  readFrom [] 0 text.toList

end FfiBindings.Text.Base64
