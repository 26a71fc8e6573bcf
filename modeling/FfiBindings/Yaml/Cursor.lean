import FfiBindings.Yaml.Fault

/-!
A place in the text of a YAML document. Lines end at a line feed, the next-line character and the two
separators U+2028 and U+2029; a byte order mark takes no column.
-/

set_option autoImplicit false
set_option relaxedAutoImplicit false

namespace FfiBindings.Yaml

structure Cursor where
  rest : List Char
  index : Nat := 0
  line : Nat := 0
  column : Nat := 0

/-- Stands for the character after the last one; no document may hold it. -/
def endMark : Char := '\x00'

def isBreak (c : Char) : Bool :=
  c == '\n' || c == '\r' || c == '\u0085' || c == '\u2028' || c == '\u2029'

def isBreakOrEnd (c : Char) : Bool :=
  isBreak c || c == endMark

/-- A space, a break or the end. -/
def endsWord (c : Char) : Bool :=
  c == ' ' || isBreakOrEnd c

/-- A space, a tab, a break or the end. -/
def isGap (c : Char) : Bool :=
  c == '\t' || endsWord c

/-- The characters of anchors, tag handles and directive names. -/
def isNameChar (c : Char) : Bool :=
  c.isAlphanum || c == '-' || c == '_'

namespace Cursor

def peek (cursor : Cursor) (offset : Nat) : Char :=
  cursor.rest.getD offset endMark

def current (cursor : Cursor) : Char :=
  cursor.peek 0

def pass (cursor : Cursor) (c : Char) (rest : List Char) : Cursor :=
  if isBreak c && !(c == '\r' && rest.head? == some '\n') then
    ⟨rest, cursor.index + 1, cursor.line + 1, 0⟩
  else if c = '\uFEFF' then ⟨rest, cursor.index + 1, cursor.line, cursor.column⟩
  else ⟨rest, cursor.index + 1, cursor.line, cursor.column + 1⟩

/-- Goes on by a count of characters, or to the end. -/
def advance : (count : Nat) → Cursor → Cursor
  | 0, cursor => cursor
  | count + 1, cursor =>
    match cursor.rest with
    | [] => cursor
    | c :: rest => advance count (cursor.pass c rest)

/-- How many characters in a row, from the offset on, have the property. -/
def run (cursor : Cursor) (offset : Nat) (property : Char → Bool) : Nat :=
  ((cursor.rest.drop offset).takeWhile property).length

/-- What the next characters are. -/
def take (cursor : Cursor) (count : Nat) : List Char :=
  cursor.rest.take count

def skip (cursor : Cursor) (property : Char → Bool) : Cursor :=
  cursor.advance (cursor.run 0 property)

/-- Whether a line of three marks stands here, as documents are set apart by. -/
def atMark (cursor : Cursor) (mark : Char) : Bool :=
  cursor.take 3 == [mark, mark, mark] && isGap (cursor.peek 3)

def atDocumentMark (cursor : Cursor) : Bool :=
  cursor.atMark '-' || cursor.atMark '.'

/-- Passes over a break; the separators stay what they are, any other break is a line feed. -/
def lineBreak (cursor : Cursor) : List Char × Cursor :=
  let c := cursor.current
  if c = '\r' && cursor.peek 1 = '\n' then (['\n'], cursor.advance 2)
  else if c = '\n' || c = '\r' || c = '\u0085' then (['\n'], cursor.advance 1)
  else if c = '\u2028' || c = '\u2029' then ([c], cursor.advance 1)
  else ([], cursor)

/-- Passes over the rest of a line that may hold only spaces and a comment, and over its break. -/
def endLine (cursor : Cursor) : Except Fault Cursor :=
  let cursor := cursor.skip (· == ' ')
  let cursor := if cursor.current = '#' then cursor.skip (!isBreakOrEnd ·) else cursor
  if isBreakOrEnd cursor.current then .ok cursor.lineBreak.2 else .error .malformed

end Cursor

end FfiBindings.Yaml
