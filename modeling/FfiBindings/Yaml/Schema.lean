import FfiBindings.Yaml.Token.Scalar

/-!
Tags of YAML nodes, and the tags that plain scalars get by their text. The forms of each kind of value
are matched against the whole text, where one line feed at the end does not count.
-/

set_option autoImplicit false
set_option relaxedAutoImplicit false

namespace FfiBindings.Yaml

/-- The tags that nodes can be read by. -/
inductive Tag where
  | null
  | bool
  | int
  | float
  | binary
  | timestamp
  | orderedMap
  | pairs
  | set
  | string
  | sequence
  | mapping
  /-- The key `<<`, which merges other mappings into its own. -/
  | merge
  /-- The key `=`, which holds the scalar that a mapping stands for. -/
  | value
  | unknown
  deriving DecidableEq, Repr

namespace Tag

def coreNames : List (String × Tag) :=
  [("null", .null), ("bool", .bool), ("int", .int), ("float", .float), ("binary", .binary),
    ("timestamp", .timestamp), ("omap", .orderedMap), ("pairs", .pairs), ("set", .set),
    ("str", .string), ("seq", .sequence), ("map", .mapping), ("merge", .merge), ("value", .value)]

/-- What the names of the core tags begin with. -/
def corePrefix : String := "tag:yaml.org,2002:"

def ofName (name : String) : Tag :=
  if corePrefix.toList.isPrefixOf name.toList then
    (coreNames.lookup (.ofList (name.toList.drop corePrefix.length))).getD .unknown
  else .unknown

end Tag

namespace Schema

/-- The texts that follow after one character with the property. -/
def one (property : Char → Bool) : List Char → List (List Char)
  | c :: rest => if property c then [rest] else []
  | [] => []

/-- The text after as many characters with the property as there are. -/
def many (property : Char → Bool) (cs : List Char) : List Char :=
  cs.dropWhile property

def isDigit (c : Char) : Bool := c.isDigit

def isDigitOrLine (c : Char) : Bool := c.isDigit || c == '_'

def dropSign : List Char → List Char
  | '-' :: rest => rest
  | '+' :: rest => rest
  | cs => cs

/-- The minutes and seconds of a number to base sixty, each after a colon; at least one. -/
def isSixties (finish : List Char → Bool) : List Char → Bool
  | ':' :: a :: b :: rest =>
    (a.isDigit && ((isSixties finish (b :: rest)) || finish (b :: rest))) ||
      ('0' ≤ a && a ≤ '5' && b.isDigit && (isSixties finish rest || finish rest))
  | [':', a] => a.isDigit && finish []
  | _ => false

/-- A nonempty text of the characters with the property. -/
def isAll (property : Char → Bool) (cs : List Char) : Bool :=
  !cs.isEmpty && cs.all property

def isInt (cs : List Char) : Bool :=
  match dropSign cs with
  | ['0'] => true
  | '0' :: 'b' :: rest => isAll (fun c => c == '0' || c == '1' || c == '_') rest
  | '0' :: 'x' :: rest => isAll (fun c => (Quoted.hexValue? c).isSome || c == '_') rest
  | '0' :: rest => isAll (fun c => ('0' ≤ c && c ≤ '7') || c == '_') rest
  | c :: rest =>
    c.isDigit && (rest.all isDigitOrLine || isSixties List.isEmpty (many isDigitOrLine rest))
  | [] => false

/-- An exponent, which has to have a sign, or nothing. -/
def isExponent : List Char → Bool
  | [] => true
  | e :: sign :: rest => (e == 'e' || e == 'E') && (sign == '-' || sign == '+') && isAll isDigit rest
  | _ => false

def isFraction (cs : List Char) : Bool :=
  isExponent (many isDigitOrLine cs)

def isFloat (cs : List Char) : Bool :=
  let unsigned := dropSign cs
  let numeric := match unsigned with
    | c :: rest =>
      c.isDigit &&
        let after := many isDigitOrLine rest
        (match after with
          | '.' :: fraction => isFraction fraction
          | _ => false) ||
          isSixties (fun
            | '.' :: fraction => fraction.all isDigitOrLine
            | _ => false) after
    | [] => false
  let pointed := match cs with
    | '.' :: c :: rest => c.isDigit && isFraction rest
    | _ => false
  let infinite := [".inf", ".Inf", ".INF"].contains (String.ofList unsigned)
  let undefined := [".nan", ".NaN", ".NAN"].contains (String.ofList cs)
  numeric || pointed || infinite || undefined

/-- The digits and separators of a date, `d` for a digit and `?` for a digit that may be missing. -/
def follows : (form : List Char) → List Char → List (List Char)
  | [], cs => [cs]
  | 'd' :: form, cs => (one isDigit cs).flatMap (follows form)
  | '?' :: form, cs => (one isDigit cs).flatMap (follows form) ++ follows form cs
  | c :: form, cs => (one (· == c) cs).flatMap (follows form)

def isSpaceOrTab (c : Char) : Bool := c == ' ' || c == '\t'

/-- A time zone, spaces before it, or nothing. -/
def isZone (cs : List Char) : Bool :=
  cs.isEmpty ||
    match many isSpaceOrTab cs with
    | ['Z'] => true
    | sign :: rest =>
      (sign == '-' || sign == '+') &&
        (follows "d?".toList rest ++ follows "d?:dd".toList rest).any List.isEmpty
    | [] => false

def isTime (cs : List Char) : Bool :=
  (follows "d?:dd:dd".toList cs).any fun
    | '.' :: rest => isZone (many isDigit rest)
    | rest => isZone rest

def isTimestamp (cs : List Char) : Bool :=
  (follows "dddd-dd-dd".toList cs).any List.isEmpty ||
    (follows "dddd-d?-d?".toList cs).any fun
      | 'T' :: rest => isTime rest
      | 't' :: rest => isTime rest
      | c :: rest => isSpaceOrTab c && isTime (many isSpaceOrTab rest)
      | [] => false

def truthWords : List String :=
  ["yes", "Yes", "YES", "no", "No", "NO", "true", "True", "TRUE", "false", "False", "FALSE",
    "on", "On", "ON", "off", "Off", "OFF"]

def nullWords : List String := ["~", "null", "Null", "NULL"]

/-- Signs that are reserved for other uses than to begin a value. -/
def reservedWords : List String := ["!", "&", "*"]

def dropLastLineFeed (cs : List Char) : List Char :=
  if cs.getLast? = some '\n' then cs.dropLast else cs

/-- The tag of a plain scalar. -/
def tagOf (text : String) : Tag :=
  let cs := dropLastLineFeed text.toList
  let word := String.ofList cs
  if text.isEmpty then .null
  else if truthWords.contains word then .bool
  else if isFloat cs then .float
  else if isInt cs then .int
  else if word = "<<" then .merge
  else if nullWords.contains word then .null
  else if isTimestamp cs then .timestamp
  else if word = "=" then .value
  else if reservedWords.contains word then .unknown
  else .string

end Schema

end FfiBindings.Yaml
