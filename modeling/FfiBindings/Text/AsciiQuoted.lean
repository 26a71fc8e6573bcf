import FfiBindings.Text.Quoted

/-!
Texts between double quotes in plain ASCII. Other characters are written by their UTF-16 units, of which
characters past the first plane have two.
-/

set_option autoImplicit false
set_option relaxedAutoImplicit false

namespace FfiBindings.Text

namespace AsciiQuoted

def unit (code : Nat) : List Char :=
  '\\' :: 'u' :: hexDigits 4 code

/-- The UTF-16 units of a character. -/
def units (c : Char) : List Nat :=
  let code := c.toNat
  if code < 0x10000 then [code]
  else [0xd800 + (code - 0x10000) / 0x400, 0xdc00 + (code - 0x10000) % 0x400]

def escape (c : Char) : List Char :=
  if c = '"' || c = '\\' then ['\\', c]
  else if c = '\n' then ['\\', 'n']
  else if c = '\r' then ['\\', 'r']
  else if c = '\t' then ['\\', 't']
  else if c = '\x08' then ['\\', 'b']
  else if c = '\x0c' then ['\\', 'f']
  else if 0x20 ≤ c.toNat && c.toNat ≤ 0x7e then [c]
  else (units c).flatMap unit

end AsciiQuoted

def asciiQuoted (s : String) : String :=
  .ofList ('"' :: s.toList.flatMap AsciiQuoted.escape ++ ['"'])

end FfiBindings.Text
