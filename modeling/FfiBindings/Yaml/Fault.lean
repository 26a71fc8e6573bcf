import FfiBindings.Text.Numeral

/-!
What can be wrong with a YAML document. Most faults are told apart by nothing but their place and come
to the same for a reader of settings; values that their tag does not fit are told apart.
-/

set_option autoImplicit false
set_option relaxedAutoImplicit false

namespace FfiBindings.Yaml

/-- The parts of a date that can be out of range. -/
inductive DatePart where
  | year
  | month
  | day
  | hour
  | minute
  | second
  deriving DecidableEq, Repr

inductive Fault where
  /-- The text is no document, or a node does not fit its tag. -/
  | malformed
  /-- An escape asks for a character past the last one. -/
  | noCharacter (code : Nat)
  | numeral (fault : Text.Numeral.Fault)
  | float (text : String)
  /-- A number without a single digit. -/
  | emptyNumber
  | truth (text : String)
  | date (part : DatePart) (value : Nat)
  /-- A time zone a day or more away, in days and seconds. -/
  | timeZone (days : Int) (seconds : Nat)
  | noDate
  /-- A date that is given by a mapping. -/
  | dateOfMapping
  deriving DecidableEq, Repr

/-- A span of time in days and seconds, of which zero days or zero seconds are left out. -/
def describeSpan (days : Int) (seconds : Nat) : String :=
  let parts := (if days = 0 then [] else [s!"days={days}"]) ++
    (if seconds = 0 then [] else [s!"seconds={seconds}"])
  "datetime.timedelta(" ++ ", ".intercalate parts ++ ")"

def Fault.message : Fault → String
  | .malformed => "malformed document"
  | .noCharacter code =>
    if code < 0x80000000 then "chr() arg not in range(0x110000)"
    else "Python int too large to convert to C int"
  | .numeral fault => fault.message
  | .float text => s!"could not convert string to float: {Text.quoted text}"
  | .emptyNumber => "string index out of range"
  | .truth text => Text.quoted text
  | .date .year value => s!"year {value} is out of range"
  | .date .month _ => "month must be in 1..12"
  | .date .day _ => "day is out of range for month"
  | .date .hour _ => "hour must be in 0..23"
  | .date .minute _ => "minute must be in 0..59"
  | .date .second _ => "second must be in 0..59"
  | .timeZone days seconds =>
    "offset must be a timedelta strictly between -timedelta(hours=24) and timedelta(hours=24), " ++
      s!"not {describeSpan days seconds}."
  | .noDate => "'NoneType' object has no attribute 'groupdict'"
  | .dateOfMapping => "expected string or bytes-like object, got 'list'"

end FfiBindings.Yaml
