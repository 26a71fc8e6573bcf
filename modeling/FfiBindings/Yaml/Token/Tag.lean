import FfiBindings.Text.Utf8
import FfiBindings.Yaml.Token.Basic
import FfiBindings.Yaml.Token.Scalar

/-!
Names in a YAML document: anchors, tags and directives. The characters of a tag may be written as
escaped bytes, which must be UTF-8.
-/

set_option autoImplicit false
set_option relaxedAutoImplicit false

namespace FfiBindings.Yaml

/-- The name of an anchor or an alias after its indicator. -/
def anchorName (cursor : Cursor) : Except Fault (String × Cursor) :=
  let size := cursor.run 0 isNameChar
  let after := cursor.advance size
  let c := after.current
  if size = 0 then .error .malformed
  else if isGap c || ['?', ':', ',', ']', '}', '%', '@', '`'].contains c then
    .ok (.ofList (cursor.take size), after)
  else .error .malformed

namespace Tag

def isUriChar (c : Char) : Bool :=
  c.isAlphanum || "-;/?:@&=+$,_.!~*'()[]".toList.contains c

/-- Bytes that are escaped one after another. -/
def escapedBytes : List Char → Option (List UInt8 × List Char)
  | '%' :: a :: b :: rest => do
    let byte ← Quoted.hexNumber? [a, b]
    let (bytes, rest) ← escapedBytes rest
    return (byte.toUInt8 :: bytes, rest)
  | '%' :: _ => none
  | rest => some ([], rest)

/-- The characters of a tag from here on, with how many stand for them. -/
def uriFrom : (fuel : Nat) → List Char → Except Fault (List Char × Nat)
  | 0, _ => .ok ([], 0)
  | _, [] => .ok ([], 0)
  | fuel + 1, c :: rest =>
    if c = '%' then
      match escapedBytes (c :: rest) with
      | none => .error .malformed
      | some (bytes, after) =>
        match Text.Utf8.decode ⟨bytes.toArray⟩ with
        | .error _ => .error .malformed
        | .ok text => do
          let (chars, size) ← uriFrom fuel after
          return (text.toList ++ chars, 3 * bytes.length + size)
    else if isUriChar c then do
      let (chars, size) ← uriFrom fuel rest
      return (c :: chars, size + 1)
    else .ok ([], 0)

def uri (cursor : Cursor) : Except Fault (String × Cursor) := do
  let (chars, size) ← uriFrom (cursor.rest.length + 1) cursor.rest
  if size = 0 then throw .malformed
  return (.ofList chars, cursor.advance size)

/-- A handle: an exclamation mark, or a name between two of them. -/
def handle (cursor : Cursor) : Except Fault (String × Cursor) :=
  if cursor.current ≠ '!' then .error .malformed
  else if cursor.peek 1 = ' ' then .ok ("!", cursor.advance 1)
  else
    let size := cursor.run 1 isNameChar
    if cursor.peek (size + 1) = '!' then
      .ok (.ofList (cursor.take (size + 2)), cursor.advance (size + 2))
    else .error .malformed

/-- A tag at its exclamation mark: its handle, if it has one, and the rest of it. -/
def read (cursor : Cursor) : Except Fault (Option String × String × Cursor) := do
  let next := cursor.peek 1
  let (mark, suffix, cursor) ←
    if next = '<' then do
      let (suffix, cursor) ← uri (cursor.advance 2)
      if cursor.current ≠ '>' then throw .malformed
      pure (none, suffix, cursor.advance 1)
    else if isGap next then pure (none, "!", cursor.advance 1)
    else do
      let word := (cursor.rest.drop 1).takeWhile (!endsWord ·)
      let (mark, cursor) ← if word.contains '!' then handle cursor else pure ("!", cursor.advance 1)
      let (suffix, cursor) ← uri cursor
      pure (some mark, suffix, cursor)
  if endsWord cursor.current then return (mark, suffix, cursor) else throw .malformed

end Tag

namespace Directive

def number (cursor : Cursor) : Except Fault (Nat × Cursor) :=
  let size := cursor.run 0 Char.isDigit
  if size = 0 then .error .malformed
  else .ok ((cursor.take size).foldl (fun n c => n * 10 + (c.toNat - '0'.toNat)) 0,
    cursor.advance size)

def readVersion (cursor : Cursor) : Except Fault (Directive × Cursor) := do
  let (major, cursor) ← number (cursor.skip (· == ' '))
  if cursor.current ≠ '.' then throw .malformed
  let (_, cursor) ← number (cursor.advance 1)
  if endsWord cursor.current then return (.version major, cursor) else throw .malformed

def readPrefix (cursor : Cursor) : Except Fault (Directive × Cursor) := do
  let (handle, cursor) ← Tag.handle (cursor.skip (· == ' '))
  if cursor.current ≠ ' ' then throw .malformed
  let (meaning, cursor) ← Tag.uri (cursor.skip (· == ' '))
  if endsWord cursor.current then return (.tag handle meaning, cursor) else throw .malformed

/-- A directive at its percent sign, with the rest of its line. -/
def read (cursor : Cursor) : Except Fault (Directive × Cursor) := do
  let cursor := cursor.advance 1
  let size := cursor.run 0 isNameChar
  let name := cursor.take size
  let cursor := cursor.advance size
  if size = 0 || !endsWord cursor.current then throw .malformed
  let (directive, cursor) ←
    if name = "YAML".toList then readVersion cursor
    else if name = "TAG".toList then readPrefix cursor
    else pure (.other, cursor.skip (!isBreakOrEnd ·))
  return (directive, ← cursor.endLine)

end Directive

end FfiBindings.Yaml
