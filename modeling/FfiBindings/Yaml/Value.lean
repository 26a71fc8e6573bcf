import FfiBindings.Decimal.Notation
import FfiBindings.Yaml.Timestamp

/-!
The values that YAML documents hold. A collection with an anchor keeps its name as a label; where it
occurs inside of itself, a reference with that label stands for it. Two keys are the same when they are
equal as values: numbers are compared exactly, whatever their kind, and what is no number is itself.
-/

set_option autoImplicit false
set_option relaxedAutoImplicit false

namespace FfiBindings.Yaml

inductive Value where
  | null
  | bool (value : Bool)
  | int (value : Int)
  | float (value : Float)
  | string (text : String)
  /-- A string with halves of characters, by its code points. -/
  | halved (codes : List Nat)
  | bytes (content : List UInt8)
  | timestamp (value : Timestamp)
  | list (label : Option String) (items : List Value)
  /-- An entry of an ordered map. -/
  | pair (key value : Value)
  | set (label : Option String) (items : List Value)
  | mapping (label : Option String) (entries : List (Value × Value))
  /-- The collection with that label, inside of itself. -/
  | enclosing (label : String)

namespace Value

/-- Whether the value can be a key: collections cannot. -/
def isKey : Value → Bool
  | .list _ _ => false
  | .set _ _ => false
  | .mapping _ _ => false
  | .enclosing _ => false
  | _ => true

/-- The integer that a float is equal to, if there is one. -/
def wholeNumber? (x : Float) : Option Int :=
  let bits := x.toBits.toNat
  let magnitude := bits % 0x8000000000000000
  if 0x7ff0000000000000 ≤ magnitude then none
  else
    let b := Decimal.Binary.ofBits magnitude.toUInt64
    let size := Nat.pow 2 (-b.exponent).toNat
    if b.significand % size ≠ 0 then none
    else
      let whole := b.significand / size * Nat.pow 2 b.exponent.toNat
      some (if 0x8000000000000000 ≤ bits then -Int.ofNat whole else Int.ofNat whole)

/-- The integer that a number or a truth value is equal to. -/
def whole? : Value → Option Int
  | .bool value => some (if value then 1 else 0)
  | .int value => some value
  | .float value => wholeNumber? value
  | _ => none

def sameKey : Value → Value → Bool
  | .null, .null => true
  | .string text, .string other => text == other
  | .halved codes, .halved other => codes == other
  | .bytes content, .bytes other => content == other
  | .timestamp (.date date), .timestamp (.date other) => date == other
  | .timestamp (.dateTime time), .timestamp (.dateTime other) => time.same other
  | .float x, .float y => x == y || (x.isNaN && y.isNaN)
  | value, other => value.whole?.isSome && value.whole? == other.whole?

/-- Puts an entry in the place of the one with the same key, which keeps its key, or last. -/
def put (key value : Value) : List (Value × Value) → List (Value × Value)
  | [] => [(key, value)]
  | (other, before) :: rest =>
    if other.sameKey key then (other, value) :: rest else (other, before) :: put key value rest

/-- One entry for each key: the first key with the last value. -/
def distinct (entries : List (Value × Value)) : List (Value × Value) :=
  entries.foldl (fun distinct (key, value) => put key value distinct) []

/-- The value under a key of a mapping. -/
def get? (name : String) : List (Value × Value) → Option Value
  | [] => none
  | (.string key, value) :: rest => if key = name then some value else get? name rest
  | _ :: rest => get? name rest

/-- Exponents from sixteen on, and those below minus four, are written as such. -/
def floatNotation : Decimal.Notation := ⟨-4, 15, 2, "inf", "nan"⟩

/-- The collections that labels stand for. -/
abbrev Labels := List (String × Value)

def inBrackets (parts : List String) : String :=
  "[" ++ ", ".intercalate parts ++ "]"

def inParentheses (parts : List String) : String :=
  "(" ++ ", ".intercalate parts ++ ")"

def inBraces (parts : List String) : String :=
  "\x7b" ++ ", ".intercalate parts ++ "\x7d"

mutual

/-- The value as messages show it, where `refer` shows a reference from inside of the collections with the
labels `shown`. -/
def textWith (refer : (shown : List String) → (label : String) → String) (shown : List String) :
    Value → String
  | .null => "None"
  | .bool value => if value then "True" else "False"
  | .int value => toString value
  | .float value => floatNotation.text value
  | .string text => Text.quoted text
  | .halved codes => Text.Quoted.ofCodes codes
  | .bytes content => Text.Quoted.ofBytes content
  | .timestamp value => value.text
  | .list label items => inBrackets (textsWith refer (label.toList ++ shown) items)
  | .pair key value => inParentheses [key.textWith refer shown, value.textWith refer shown]
  | .set label items =>
    if items.isEmpty then "set()" else inBraces (textsWith refer (label.toList ++ shown) items)
  | .mapping label entries => inBraces (entryTextsWith refer (label.toList ++ shown) entries)
  | .enclosing label => refer shown label

def textsWith (refer : (shown : List String) → (label : String) → String) (shown : List String) :
    List Value → List String
  | [] => []
  | item :: items => item.textWith refer shown :: textsWith refer shown items

def entryTextWith (refer : (shown : List String) → (label : String) → String)
    (shown : List String) : Value × Value → String
  | (key, value) => key.textWith refer shown ++ ": " ++ value.textWith refer shown

def entryTextsWith (refer : (shown : List String) → (label : String) → String)
    (shown : List String) : List (Value × Value) → List String
  | [] => []
  | entry :: entries => entryTextWith refer shown entry :: entryTextsWith refer shown entries

end

/-- A reference to a collection: three dots inside of it, and the collection elsewhere. No more than
`depth` references are followed one inside the other, and there are at most as many as labels. -/
def referenceText (labels : Labels) : (depth : Nat) → (shown : List String) → (label : String) →
    String
  | 0, _, _ => "..."
  | depth + 1, shown, label =>
    let value := (labels.lookup label).getD .null
    if shown.contains label then
      match value with
      | .list _ _ => inBrackets ["..."]
      | _ => inBraces ["..."]
    else value.textWith (referenceText labels depth) shown

def text (labels : Labels) (value : Value) : String :=
  value.textWith (referenceText labels (labels.length + 1)) []

end Value

end FfiBindings.Yaml
