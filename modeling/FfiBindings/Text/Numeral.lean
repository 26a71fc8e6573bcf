import FfiBindings.Text.Blank
import FfiBindings.Text.Word
import FfiBindings.Text.Quoted

/-!
Reading integers from free text. A numeral may be padded with blanks and may have a sign, the prefix
of its base, decimal digits of any script, and single underscores between digits. In a base that is
no power of two a numeral of more than `digitLimit` digits is refused, so that the cost of reading it
stays bounded.
-/

set_option autoImplicit false
set_option relaxedAutoImplicit false

namespace FfiBindings.Text.Numeral

inductive Fault where
  | malformed (base : Nat) (text : String)
  | tooLong (digits : Nat)
  deriving DecidableEq, Repr

def digitLimit : Nat := 4300

/-- A malformed text is shown quoted, and cut after two hundred characters. -/
def Fault.message : Fault → String
  | .malformed base text =>
    s!"invalid literal for int() with base {base}: " ++ .ofList ((quoted text).toList.take 200)
  | .tooLong digits =>
    s!"Exceeds the limit ({digitLimit} digits) for integer string conversion: " ++
      s!"value has {digits} digits; use sys.set_int_max_str_digits() to increase the limit"

/-- Blanks that may surround a numeral: of the ASCII separators only the space counts. -/
def isPadding (c : Char) : Bool :=
  if c.toNat < 128 then (0x09 ≤ c.toNat && c.toNat ≤ 0x0d) || c == ' ' else isBlank c

def digit? (base : Nat) (c : Char) : Option Nat :=
  let value? :=
    if c.isAlpha then some (10 + (c.toLower.toNat - 'a'.toNat)) else decimalValue? c
  value?.filter (· < base)

/-- Reads on after a digit: the value, the count of digits and what follows them. An underscore must
stand between two digits. -/
def digitsFrom (base value count : Nat) : List Char → Option (Nat × Nat × List Char)
  | [] => some (value, count, [])
  | ['_'] => none
  | '_' :: c :: rest =>
    match digit? base c with
    | some d => digitsFrom base (value * base + d) (count + 1) rest
    | none => none
  | c :: rest =>
    match digit? base c with
    | some d => digitsFrom base (value * base + d) (count + 1) rest
    | none => some (value, count, c :: rest)

def digits? (base : Nat) : List Char → Option (Nat × Nat × List Char)
  | [] => none
  | c :: rest => (digit? base c).bind fun d => digitsFrom base d 1 rest

def prefixLetter? (base : Nat) : Option Char :=
  if base = 2 then some 'b' else if base = 8 then some 'o' else if base = 16 then some 'x' else none

/-- Drops the prefix of the base; one underscore may follow it. -/
def dropPrefix (base : Nat) : List Char → List Char
  | '0' :: letter :: rest =>
    if prefixLetter? base = some letter.toLower then
      match rest with
      | '_' :: rest => rest
      | rest => rest
    else '0' :: letter :: rest
  | cs => cs

def dropSign : List Char → Bool × List Char
  | '-' :: rest => (true, rest)
  | '+' :: rest => (false, rest)
  | cs => (false, cs)

def isPowerOfTwo (base : Nat) : Bool :=
  base == 2 || base == 4 || base == 8 || base == 16 || base == 32

def read (base : Nat) (text : String) : Except Fault Int :=
  let (negative, cs) := dropSign (text.toList.dropWhile isPadding)
  match digits? base (dropPrefix base cs) with
  | none => .error (.malformed base text)
  | some (value, count, rest) =>
    if !isPowerOfTwo base && digitLimit < count then .error (.tooLong count)
    else if rest.all isPadding then .ok (if negative then -(value : Int) else value)
    else .error (.malformed base text)

end FfiBindings.Text.Numeral
