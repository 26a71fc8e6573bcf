import FfiBindings.Text.HiddenTable

/-!
Quoted texts for messages. A text stands between apostrophes, or between double quotes when it holds
an apostrophe and no double quote; backslashes, the chosen quote and characters without a visible form
are escaped, everything else stands for itself. Code points may also name halves of characters, which no
text has; those are escaped too.
-/

set_option autoImplicit false
set_option relaxedAutoImplicit false

namespace FfiBindings.Text

/-- Whether the character has a visible form; of the separators only the space has one. -/
def isVisible (c : Char) : Bool :=
  if c.toNat < 128 then 0x20 ≤ c.toNat && c.toNat < 0x7f
  else !CodeRange.mem hidden c

def hexDigit (n : Nat) : Char :=
  if n < 10 then .ofNat ('0'.toNat + n) else .ofNat ('a'.toNat + (n - 10))

/-- The last `width` hexadecimal digits of a number. -/
def hexDigits : (width : Nat) → (n : Nat) → List Char
  | 0, _ => []
  | width + 1, n => hexDigits width (n / 16) ++ [hexDigit (n % 16)]

/-- Whether a code point is half of a surrogate pair, and so no character by itself. -/
def isHalf (code : Nat) : Bool :=
  0xd800 ≤ code && code ≤ 0xdfff

/-- The text of the code points, with a mark in the place of each half of a character. -/
def withMarks (mark : Char) (codes : List Nat) : String :=
  .ofList (codes.map fun code => if isHalf code then mark else .ofNat code)

namespace Quoted

def quoteFor (s : List Char) : Char :=
  if s.contains '\'' && !s.contains '"' then '"' else '\''

/-- One character between the given quotes. -/
def escape (quote c : Char) : List Char :=
  if c = '\\' || c = quote then ['\\', c]
  else if c = '\n' then ['\\', 'n']
  else if c = '\r' then ['\\', 'r']
  else if c = '\t' then ['\\', 't']
  else if isVisible c then [c]
  else if c.toNat < 0x100 then '\\' :: 'x' :: hexDigits 2 c.toNat
  else if c.toNat < 0x10000 then '\\' :: 'u' :: hexDigits 4 c.toNat
  else '\\' :: 'U' :: hexDigits 8 c.toNat

def ofChars (s : List Char) : List Char :=
  let quote := quoteFor s
  quote :: s.flatMap (escape quote) ++ [quote]

/-- One code point between the given quotes. -/
def escapeCode (quote : Char) (code : Nat) : List Char :=
  if isHalf code then '\\' :: 'u' :: hexDigits 4 code else escape quote (.ofNat code)

def ofCodes (codes : List Nat) : String :=
  let quote := quoteFor (withMarks '\ufffd' codes).toList
  .ofList (quote :: codes.flatMap (escapeCode quote) ++ [quote])

/-- One byte between the given quotes: only printable ASCII stands for itself. -/
def escapeByte (quote : Char) (byte : UInt8) : List Char :=
  let c := Char.ofNat byte.toNat
  if byte.toNat < 0x80 then escape quote c else '\\' :: 'x' :: hexDigits 2 byte.toNat

/-- A byte string: the letter `b` and the bytes between quotes. -/
def ofBytes (bytes : List UInt8) : String :=
  let quote := quoteFor (bytes.map fun byte => .ofNat byte.toNat)
  .ofList ('b' :: quote :: bytes.flatMap (escapeByte quote) ++ [quote])

end Quoted

def quoted (s : String) : String :=
  .ofList (Quoted.ofChars s.toList)

end FfiBindings.Text
