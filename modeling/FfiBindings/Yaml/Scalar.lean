import FfiBindings.Text.Base64
import FfiBindings.Text.FloatNumeral
import FfiBindings.Yaml.Token.Basic
import FfiBindings.Yaml.Value

/-!
The values of YAML scalars by their tag. Underscores in numbers do not count; numbers with colons are
written to base sixty.
-/

set_option autoImplicit false
set_option relaxedAutoImplicit false

namespace FfiBindings.Yaml.Scalar

/-- The sign of a number and what follows it. -/
def splitSign (cs : List Char) : Except Fault (Bool × List Char) :=
  match cs with
  | [] => .error .emptyNumber
  | '-' :: rest => .ok (true, rest)
  | '+' :: rest => .ok (false, rest)
  | cs => .ok (false, cs)

def withoutLines (text : String) : String :=
  .ofList (text.toList.filter (· != '_'))

def numeral (base : Nat) (cs : List Char) : Except Fault Int :=
  (Text.Numeral.read base (.ofList cs)).mapError .numeral

/-- The parts of a number to base sixty. -/
def sixties (cs : List Char) : List String :=
  (String.ofList cs).splitOn ":"

def unsignedInt (cs : List Char) : Except Fault Int :=
  match cs with
  | [] => .error .emptyNumber
  | ['0'] => .ok 0
  | '0' :: 'b' :: rest => numeral 2 rest
  | '0' :: 'x' :: rest => numeral 16 rest
  | '0' :: _ => numeral 8 cs
  | _ =>
    if cs.contains ':' then do
      let parts ← (sixties cs).mapM fun part => numeral 10 part.toList
      return parts.foldl (fun value part => 60 * value + part) 0
    else numeral 10 cs

def int (text : String) : Except Fault Int := do
  let (negative, cs) ← splitSign (withoutLines text).toList
  let magnitude ← unsignedInt cs
  return if negative then -magnitude else magnitude

def decimal (text : String) : Except Fault Float :=
  match Text.FloatNumeral.read? text with
  | some x => .ok x
  | none => .error (.float text)

/-- The parts of a number to base sixty are added up from the last one on, where `unit` is what one of
the next part is worth. -/
def sumSixties : (unit : Nat) → (sum : Float) → (parts : List Float) → Float
  | _, sum, [] => sum
  | unit, sum, part :: parts => sumSixties (60 * unit) (sum + part * unit.toFloat) parts

def float (text : String) : Except Fault Float := do
  let (negative, cs) ← splitSign (Text.lower (withoutLines text)).toList
  let word := String.ofList cs
  let magnitude ←
    if word = ".inf" then pure (1.0 / 0.0)
    else if word = ".nan" then pure (0.0 / 0.0)
    else if cs.contains ':' then do
      let parts ← (sixties cs).mapM decimal
      pure (sumSixties 1 0.0 parts.reverse)
    else decimal word
  return if negative then -magnitude else magnitude

def bool (text : String) : Except Fault Bool :=
  let word := Text.lower text
  if ["yes", "true", "on"].contains word then .ok true
  else if ["no", "false", "off"].contains word then .ok false
  else .error (.truth word)

/-- Bytes are written in ASCII. -/
def bytes (text : String) : Except Fault (List UInt8) :=
  if text.toList.all (·.toNat < 128) then
    match Text.Base64.read? text with
    | some content => .ok content
    | none => .error .malformed
  else .error .malformed

/-- A string keeps the halves of characters that it has. -/
def string : Wording → Value
  | .whole text => .string text
  | .halved codes => .halved codes

/-- The value of a scalar; the tags of collections do not fit one. -/
def read (tag : Tag) (wording : Wording) : Except Fault Value :=
  match tag with
  | .null => .ok .null
  | .bool => (bool wording.shown).map .bool
  | .int => (int wording.shown).map .int
  | .float => (float wording.shown).map .float
  | .binary => (bytes wording.shown).map .bytes
  | .timestamp => (Timestamp.read wording.shown).map .timestamp
  | .string => .ok (string wording)
  | .orderedMap | .pairs | .set | .sequence | .mapping | .merge | .value | .unknown =>
    .error .malformed

end FfiBindings.Yaml.Scalar
