import FfiBindings.Yaml.Schema

/-!
Dates and times of YAML documents. A time without a zone is of no particular place, so it is never the
same as one with a zone; two times with zones are the same when they are the same instant.
-/

set_option autoImplicit false
set_option relaxedAutoImplicit false

namespace FfiBindings.Yaml

structure Date where
  year : Nat
  month : Nat
  day : Nat
  deriving DecidableEq, Repr

structure DateTime where
  date : Date
  hour : Nat
  minute : Nat
  second : Nat
  microsecond : Nat
  /-- Minutes that the zone is ahead of universal time. -/
  zone : Option Int
  deriving DecidableEq, Repr

inductive Timestamp where
  | date (date : Date)
  | dateTime (time : DateTime)
  deriving DecidableEq, Repr

namespace Date

def isLeapYear (year : Nat) : Bool :=
  year % 4 == 0 && (year % 100 != 0 || year % 400 == 0)

def daysInMonth (year month : Nat) : Nat :=
  if month = 2 then if isLeapYear year then 29 else 28
  else if [4, 6, 9, 11].contains month then 30
  else 31

/-- The count of days up to this one. -/
def dayNumber (date : Date) : Nat :=
  let years := date.year - 1
  let months := (List.range (date.month - 1)).map fun month => daysInMonth date.year (month + 1)
  365 * years + years / 4 - years / 100 + years / 400 + months.foldl Nat.add 0 + date.day

/-- Refuses dates that are not in the calendar. -/
def check (date : Date) : Except Fault Unit :=
  if date.year = 0 then .error (.date .year date.year)
  else if date.month = 0 || 12 < date.month then .error (.date .month date.month)
  else if date.day = 0 || daysInMonth date.year date.month < date.day then
    .error (.date .day date.day)
  else .ok ()

def text (date : Date) : String :=
  s!"datetime.date({date.year}, {date.month}, {date.day})"

end Date

namespace DateTime

/-- Minutes since the first day, in universal time where there is a zone. -/
def minutes (time : DateTime) : Int :=
  ((time.date.dayNumber * 24 + time.hour) * 60 + time.minute : Nat) - time.zone.getD 0

def same (time other : DateTime) : Bool :=
  time.zone.isSome == other.zone.isSome && time.minutes == other.minutes &&
    time.second == other.second && time.microsecond == other.microsecond

def check (time : DateTime) : Except Fault Unit := do
  time.date.check
  if 23 < time.hour then throw (.date .hour time.hour)
  if 59 < time.minute then throw (.date .minute time.minute)
  if 59 < time.second then throw (.date .second time.second)

/-- Seconds and parts of them are left out where they are zero. -/
def text (time : DateTime) : String :=
  let parts := [time.date.year, time.date.month, time.date.day, time.hour, time.minute]
  let seconds :=
    if time.microsecond ≠ 0 then [time.second, time.microsecond]
    else if time.second ≠ 0 then [time.second]
    else []
  let zone := match time.zone with
    | none => []
    | some 0 => ["tzinfo=datetime.timezone.utc"]
    | some minutes =>
      let span := describeSpan (minutes.fdiv 1440) ((minutes.fmod 1440).toNat * 60)
      ["tzinfo=datetime.timezone(" ++ span ++ ")"]
  "datetime.datetime(" ++ ", ".intercalate ((parts ++ seconds).map toString ++ zone) ++ ")"

end DateTime

namespace Timestamp

def text : Timestamp → String
  | .date day => day.text
  | .dateTime time => time.text

/-- A number of as many digits as there are, up to `most`. -/
def number (least most : Nat) (cs : List Char) : Option (Nat × List Char) :=
  let digits := (cs.takeWhile Schema.isDigit).take most
  if digits.length < least then none
  else some (digits.foldl (fun n c => 10 * n + (c.toNat - '0'.toNat)) 0, cs.drop digits.length)

def dropMark (mark : Char) (cs : List Char) : Option (List Char) :=
  if cs.head? = some mark then some cs.tail else none

/-- The parts of a second after the point, in millionths; further digits do not count. -/
def fraction (cs : List Char) : Nat × List Char :=
  match cs with
  | '.' :: rest =>
    let digits := rest.takeWhile Schema.isDigit
    let millionths := (digits ++ ['0', '0', '0', '0', '0', '0']).take 6
    (millionths.foldl (fun n c => 10 * n + (c.toNat - '0'.toNat)) 0, rest.drop digits.length)
  | cs => (0, cs)

/-- The minutes of a zone that reaches to the end of the text. -/
def minutesAhead? : List Char → Option Int
  | ['Z'] => some 0
  | sign :: rest => do
    guard (sign = '+' ∨ sign = '-')
    let (hours, rest) ← number 1 2 rest
    let (minutes, rest) ← match rest with
      | ':' :: rest => number 2 2 rest
      | rest => some (0, rest)
    guard rest.isEmpty
    let ahead : Int := hours * 60 + minutes
    return if sign = '-' then -ahead else ahead
  | [] => none

/-- The zone at the end of a text, which may be missing. -/
def zone (cs : List Char) : Option (Option Int) :=
  if cs.isEmpty then some none
  else (minutesAhead? (Schema.many Schema.isSpaceOrTab cs)).map some

/-- What stands between a date and its time. -/
def dropGap : List Char → Option (List Char)
  | 'T' :: rest => some rest
  | 't' :: rest => some rest
  | c :: rest => if Schema.isSpaceOrTab c then some (Schema.many Schema.isSpaceOrTab rest) else none
  | [] => none

/-- Takes a text apart, without a look at what the numbers are. -/
def parts? (text : String) : Option Timestamp := do
  let (year, rest) ← number 4 4 (Schema.dropLastLineFeed text.toList)
  let rest ← dropMark '-' rest
  let (month, rest) ← number 1 2 rest
  let rest ← dropMark '-' rest
  let (day, rest) ← number 1 2 rest
  let calendarDay : Date := ⟨year, month, day⟩
  if rest.isEmpty then return .date calendarDay
  let (hour, rest) ← number 1 2 (← dropGap rest)
  let rest ← dropMark ':' rest
  let (minute, rest) ← number 2 2 rest
  let rest ← dropMark ':' rest
  let (second, rest) ← number 2 2 rest
  let (microsecond, rest) := fraction rest
  return .dateTime ⟨calendarDay, hour, minute, second, microsecond, ← zone rest⟩

/-- A zone less than a day away from universal time. -/
def checkZone (zone : Option Int) : Except Fault Unit :=
  let minutes := zone.getD 0
  if minutes.natAbs < 1440 then .ok ()
  else .error (.timeZone (minutes.fdiv 1440) ((minutes.fmod 1440).toNat * 60))

def read (text : String) : Except Fault Timestamp := do
  match parts? text with
  | none => throw .noDate
  | some (.date day) =>
    day.check
    return .date day
  | some (.dateTime time) =>
    checkZone time.zone
    time.check
    return .dateTime time

end Timestamp

end FfiBindings.Yaml
