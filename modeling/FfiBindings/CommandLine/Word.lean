import FfiBindings.CommandLine.Switch

/-!
The words of a command line. A word is a switch when it begins with a dash and is spelled like one; a
long spelling may be cut short where no other begins in the same way, and may have a value after an
equals sign; one letter may be followed by others. After a double dash every word is an operand, and
so are negative numbers and words with a space.
-/

set_option autoImplicit false
set_option relaxedAutoImplicit false

namespace FfiBindings.CommandLine

/-- What follows the spelling of a switch in the same word. -/
structure Attached where
  afterEquals : Bool
  text : List Char
  deriving DecidableEq, Repr

inductive Kind where
  | operand
  /-- The double dash. -/
  | mark
  | switch (switch : Switch) (isShort : Bool) (attached : Option Attached)
  /-- A word like a switch that is none. -/
  | unknown
  deriving DecidableEq, Repr

structure Word where
  text : String
  kind : Kind
  deriving DecidableEq, Repr

namespace Word

def isMark (word : Word) : Bool :=
  word.kind == .mark

end Word

/-- Whether the spelling has a single dash. -/
def isShortSpelling (spelling : String) : Bool :=
  (spelling.toList.drop 1).head? != some '-'

/-- Cuts a word at its first equals sign. -/
def splitEquals (cs : List Char) : List Char × Option Attached :=
  match cs.dropWhile (· != '=') with
  | [] => (cs, none)
  | _ :: value => (cs.takeWhile (· != '='), some ⟨true, value⟩)

/-- A minus sign before digits, which may have a point before or between them. -/
def isNegativeNumber (cs : List Char) : Bool :=
  match if cs.getLast? = some '\n' then cs.dropLast else cs with
  | '-' :: digits =>
    let fraction := (digits.dropWhile Text.isDecimal).drop 1
    (!digits.isEmpty && digits.all Text.isDecimal) ||
      ((digits.dropWhile Text.isDecimal).head? == some '.' && !fraction.isEmpty &&
        fraction.all Text.isDecimal)
  | _ => false

/-- The spellings that a word with a dash may be short for, each with what is attached to it. -/
def candidates (scope : Scope) (cs : List Char) : List (String × Switch × Option Attached) :=
  if cs.take 2 = ['-', '-'] then
    let (start, attached) := splitEquals cs
    (scope.spellings.filter fun (spelling, _) => start.isPrefixOf spelling.toList).map
      fun (spelling, switch) => (spelling, switch, attached)
  else
    scope.spellings.filterMap fun (spelling, switch) =>
      if spelling.toList = cs.take 2 then some (spelling, switch, some ⟨false, cs.drop 2⟩)
      else if cs.isPrefixOf spelling.toList then some (spelling, switch, none)
      else none

/-- The kind of a word that begins with a dash and has further characters. -/
def kindOfDashed (scope : Scope) (text : String) : Except UsageError Kind :=
  let cs := text.toList
  let (start, attached) := splitEquals cs
  match scope.spellings.lookup text, scope.spellings.lookup (.ofList start) with
  | some switch, _ => .ok (.switch switch (isShortSpelling text) none)
  | none, some switch => .ok (.switch switch (isShortSpelling (.ofList start)) attached)
  | none, none =>
    match candidates scope cs with
    | [(spelling, switch, attached)] => .ok (.switch switch (isShortSpelling spelling) attached)
    | [] => .ok (if isNegativeNumber cs || cs.contains ' ' then .operand else .unknown)
    | candidates => .error (.ambiguous text (candidates.map Prod.fst))

def kindOf (scope : Scope) (text : String) : Except UsageError Kind :=
  match text.toList with
  | '-' :: _ :: _ => kindOfDashed scope text
  | _ => .ok .operand

def wordsOf (scope : Scope) : List String → Except UsageError (List Word)
  | [] => .ok []
  | text :: rest =>
    if text = "--" then .ok (⟨text, .mark⟩ :: rest.map (⟨·, .operand⟩))
    else do
      let kind ← kindOf scope text
      return ⟨text, kind⟩ :: (← wordsOf scope rest)

end FfiBindings.CommandLine
