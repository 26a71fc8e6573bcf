import FfiBindings.Yaml.Cursor

/-!
The text of YAML scalars: plain, quoted, and in blocks. A single line break inside a scalar folds to a
space, further ones stay; blocks fold or keep their breaks as their header says.
-/

set_option autoImplicit false
set_option relaxedAutoImplicit false

namespace FfiBindings.Yaml

open Cursor

/-- What stands between two lines of a scalar, after the break and the empty lines that follow it. -/
def foldBreaks (lineBreak breaks : List Char) : List Char :=
  (if lineBreak ≠ ['\n'] then lineBreak else if breaks.isEmpty then [' '] else []) ++ breaks

namespace Plain

/-- Whether a plain scalar stops at the first of two characters. -/
def stops (inFlow : Bool) (c next : Char) : Bool :=
  isGap c ||
    (c == ':' && (isGap next || (inFlow && [',', '[', ']', '{', '}'].contains next))) ||
    (inFlow && [',', '?', '[', ']', '{', '}'].contains c)

def runLength (inFlow : Bool) : List Char → Nat
  | [] => 0
  | c :: rest =>
    if stops inFlow c (rest.headD endMark) then 0 else runLength inFlow rest + 1

/-- Empty lines and the spaces that begin lines, up to a document mark. -/
def breaksFrom : (fuel : Nat) → Cursor → Option (List Char) × Cursor
  | 0, cursor => (some [], cursor)
  | fuel + 1, cursor =>
    if cursor.current = ' ' then breaksFrom fuel (cursor.advance 1)
    else if isBreak cursor.current then
      let (lineBreak, cursor) := cursor.lineBreak
      if cursor.atDocumentMark then (none, cursor)
      else
        let (breaks, cursor) := breaksFrom fuel cursor
        (breaks.map (lineBreak ++ ·), cursor)
    else (some [], cursor)

/-- What joins two stretches of a plain scalar, with whether a line has ended; nothing where the scalar
cannot go on. -/
def joint (cursor : Cursor) : Option (List Char) × Bool × Cursor :=
  let spaces := cursor.run 0 (· == ' ')
  let blanks := cursor.take spaces
  let cursor := cursor.advance spaces
  if isBreak cursor.current then
    let (lineBreak, cursor) := cursor.lineBreak
    if cursor.atDocumentMark then (none, true, cursor)
    else
      let (breaks, cursor) := breaksFrom (cursor.rest.length + 1) cursor
      (breaks.map (foldBreaks lineBreak), true, cursor)
  else (if blanks.isEmpty then none else some blanks, false, cursor)

/-- The text of a plain scalar from its first stretch on, where lines must be indented by `indent`. The
flag says whether a line has ended after the last stretch, so that a key may come next. -/
def textFrom (inFlow : Bool) (indent : Int) : (fuel : Nat) → Cursor → List Char × Bool × Cursor
  | 0, cursor => ([], false, cursor)
  | fuel + 1, cursor =>
    let size := if cursor.current = '#' then 0 else runLength inFlow cursor.rest
    let stretch := cursor.take size
    let (between, ended, after) := joint (cursor.advance size)
    match between with
    | none => (stretch, ended, after)
    | some between =>
      let more := if after.current = '#' then 0 else runLength inFlow after.rest
      if more = 0 || (!inFlow && (after.column : Int) < indent) then (stretch, ended, after)
      else
        let (text, ended, after) := textFrom inFlow indent fuel after
        (stretch ++ between ++ text, ended, after)

end Plain

namespace Quoted

/-- Escapes of one letter. -/
def escapes : List (Char × Char) :=
  [('0', '\x00'), ('a', '\x07'), ('b', '\x08'), ('t', '\t'), ('\t', '\t'), ('n', '\n'), ('v', '\x0b'),
    ('f', '\x0c'), ('r', '\r'), ('e', '\x1b'), (' ', ' '), ('"', '"'), ('\\', '\\'), ('/', '/'),
    ('N', '\u0085'), ('_', '\u00a0'), ('L', '\u2028'), ('P', '\u2029')]

/-- Escapes by code point, with their counts of digits. -/
def codeEscapes : List (Char × Nat) :=
  [('x', 2), ('u', 4), ('U', 8)]

def hexValue? (c : Char) : Option Nat :=
  if c.isDigit then some (c.toNat - '0'.toNat)
  else if 'a' ≤ c && c ≤ 'f' then some (c.toNat - 'a'.toNat + 10)
  else if 'A' ≤ c && c ≤ 'F' then some (c.toNat - 'A'.toNat + 10)
  else none

/-- The number that hexadecimal digits write. -/
def hexNumber? (digits : List Char) : Option Nat :=
  digits.foldlM (fun n c => (hexValue? c).map (n * 16 + ·)) 0

def codesOf (cs : List Char) : List Nat :=
  cs.map Char.toNat

/-- Empty lines inside quotes, which no document mark may interrupt. -/
def breaksFrom : (fuel : Nat) → Cursor → Except Fault (List Char × Cursor)
  | 0, cursor => .ok ([], cursor)
  | fuel + 1, cursor =>
    if cursor.atDocumentMark then .error .malformed
    else
      let cursor := cursor.skip fun c => c == ' ' || c == '\t'
      if isBreak cursor.current then do
        let (lineBreak, cursor) := cursor.lineBreak
        let (breaks, cursor) ← breaksFrom fuel cursor
        return (lineBreak ++ breaks, cursor)
      else .ok ([], cursor)

/-- The code points of an escape after its backslash. -/
def escape (cursor : Cursor) : Except Fault (List Nat × Cursor) := do
  let c := cursor.current
  match escapes.lookup c, codeEscapes.lookup c with
  | some replacement, _ => return ([replacement.toNat], cursor.advance 1)
  | none, some count =>
    let cursor := cursor.advance 1
    let digits := cursor.take count
    if digits.length < count then throw .malformed
    match hexNumber? digits with
    | some code =>
      if 0x10ffff < code then throw (.noCharacter code)
      return ([code], cursor.advance count)
    | none => throw .malformed
  | none, none =>
    if isBreak c then
      let cursor := cursor.lineBreak.2
      let (breaks, cursor) ← breaksFrom (cursor.rest.length + 1) cursor
      return (codesOf breaks, cursor)
    else throw .malformed

/-- The code points up to the closing quote and past it. -/
def codesFrom (double : Bool) : (fuel : Nat) → Cursor → Except Fault (List Nat × Cursor)
  | 0, _ => .error .malformed
  | fuel + 1, cursor =>
    let c := cursor.current
    let quote := if double then '"' else '\''
    if c = endMark then .error .malformed
    else if !double && c = '\'' && cursor.peek 1 = '\'' then do
      let (codes, cursor) ← codesFrom double fuel (cursor.advance 2)
      return ('\''.toNat :: codes, cursor)
    else if c = quote then .ok ([], cursor.advance 1)
    else if double && c = '\\' then do
      let (piece, cursor) ← escape (cursor.advance 1)
      let (codes, cursor) ← codesFrom double fuel cursor
      return (piece ++ codes, cursor)
    else if c = ' ' || c = '\t' || isBreak c then do
      let size := cursor.run 0 fun c => c == ' ' || c == '\t'
      let blanks := cursor.take size
      let cursor := cursor.advance size
      if cursor.current = endMark then throw .malformed
      if isBreak cursor.current then
        let (lineBreak, cursor) := cursor.lineBreak
        let (breaks, cursor) ← breaksFrom (cursor.rest.length + 1) cursor
        let (codes, cursor) ← codesFrom double fuel cursor
        return (codesOf (foldBreaks lineBreak breaks) ++ codes, cursor)
      else
        let (codes, cursor) ← codesFrom double fuel cursor
        return (codesOf blanks ++ codes, cursor)
    else do
      let (codes, cursor) ← codesFrom double fuel (cursor.advance 1)
      return (c.toNat :: codes, cursor)

end Quoted

namespace Block

/-- What becomes of the breaks after the last line of a block. -/
inductive Chomping where
  | clip
  | strip
  | keep
  deriving DecidableEq

def chomping? (c : Char) : Option Chomping :=
  if c = '+' then some .keep else if c = '-' then some .strip else none

def isIncrement (c : Char) : Bool :=
  '1' ≤ c && c ≤ '9'

/-- The header of a block: how its end is chomped, and how far it is indented where that is said; the two
come in either order. -/
def header (cursor : Cursor) : Except Fault (Chomping × Option Nat × Cursor) :=
  let (first, cursor) := match chomping? cursor.current with
    | some chomping => (some chomping, cursor.advance 1)
    | none => (none, cursor)
  let (increment, cursor) :=
    if isIncrement cursor.current then (some (cursor.current.toNat - '0'.toNat), cursor.advance 1)
    else (none, cursor)
  let (chomping, cursor) := match first, increment, chomping? cursor.current with
    | some chomping, _, _ => (chomping, cursor)
    | none, some _, some chomping => (chomping, cursor.advance 1)
    | none, _, _ => (.clip, cursor)
  if endsWord cursor.current then .ok (chomping, increment, cursor) else .error .malformed

/-- The empty lines before the first line of a block, and the deepest column among them. -/
def leadFrom : (fuel : Nat) → (deepest : Nat) → Cursor → List Char × Nat × Cursor
  | 0, deepest, cursor => ([], deepest, cursor)
  | fuel + 1, deepest, cursor =>
    if cursor.current = ' ' then
      let cursor := cursor.advance 1
      leadFrom fuel (max deepest cursor.column) cursor
    else if isBreak cursor.current then
      let (lineBreak, cursor) := cursor.lineBreak
      let (breaks, deepest, cursor) := leadFrom fuel deepest cursor
      (lineBreak ++ breaks, deepest, cursor)
    else ([], deepest, cursor)

def skipIndent (indent : Nat) (cursor : Cursor) : Cursor :=
  cursor.advance (min (cursor.run 0 (· == ' ')) (indent - cursor.column))

/-- The empty lines before the next line of a block. -/
def breaksFrom (indent : Nat) : (fuel : Nat) → Cursor → List Char × Cursor
  | 0, cursor => ([], cursor)
  | fuel + 1, cursor =>
    let cursor := skipIndent indent cursor
    if isBreak cursor.current then
      let (lineBreak, cursor) := cursor.lineBreak
      let (breaks, cursor) := breaksFrom indent fuel cursor
      (lineBreak ++ breaks, cursor)
    else ([], cursor)

def isBlankChar (c : Char) : Bool :=
  c == ' ' || c == '\t'

/-- The lines of a block: their text, the break after the last one, and the empty lines after that. -/
def linesFrom (folded : Bool) (indent : Nat) : (fuel : Nat) → (breaks : List Char) → Cursor →
    List Char × List Char × List Char × Cursor
  | 0, breaks, cursor => ([], [], breaks, cursor)
  | fuel + 1, breaks, cursor =>
    let startsBlank := isBlankChar cursor.current
    let size := cursor.run 0 (!isBreakOrEnd ·)
    let line := cursor.take size
    let (lineBreak, cursor) := (cursor.advance size).lineBreak
    let (nextBreaks, cursor) := breaksFrom indent (cursor.rest.length + 1) cursor
    if cursor.column = indent && cursor.current ≠ endMark then
      let between :=
        if folded && lineBreak = ['\n'] && !startsBlank && !isBlankChar cursor.current then
          if nextBreaks.isEmpty then [' '] else []
        else lineBreak
      let (text, last, trailing, cursor) := linesFrom folded indent fuel nextBreaks cursor
      (breaks ++ line ++ between ++ text, last, trailing, cursor)
    else (breaks ++ line, lineBreak, nextBreaks, cursor)

/-- A block scalar after its indicator, in a block that is indented by `indent`. -/
def text (folded : Bool) (indent : Int) (cursor : Cursor) : Except Fault (List Char × Cursor) := do
  let (chomping, increment, cursor) ← header cursor
  let cursor ← cursor.endLine
  let least := max 1 (indent + 1).toNat
  let fuel := cursor.rest.length + 1
  let (column, breaks, cursor) := match increment with
    | none =>
      let (breaks, deepest, cursor) := leadFrom fuel 0 cursor
      (max least deepest, breaks, cursor)
    | some increment =>
      let column := least + increment - 1
      let (breaks, cursor) := breaksFrom column fuel cursor
      (column, breaks, cursor)
  let (body, last, trailing, cursor) :=
    if cursor.column = column && cursor.current ≠ endMark then
      linesFrom folded column fuel breaks cursor
    else ([], [], breaks, cursor)
  let ending := match chomping with
    | .strip => []
    | .clip => last
    | .keep => last ++ trailing
  return (body ++ ending, cursor)

end Block

end FfiBindings.Yaml
