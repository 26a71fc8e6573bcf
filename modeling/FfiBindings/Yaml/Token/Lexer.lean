import FfiBindings.Yaml.Token.Tag

/-!
Cutting a YAML document into tokens. Blocks are told by indentation. A scalar, an alias or a collection
may turn out to be a key once a colon follows it on its line, so places where a key may begin are kept,
and the token for the key is put in front afterwards.
-/

set_option autoImplicit false
set_option relaxedAutoImplicit false

namespace FfiBindings.Yaml

/-- A place where a key may have begun. -/
structure PossibleKey where
  /-- The number of tokens before it. -/
  position : Nat
  /-- Nothing but a key can stand here. -/
  isRequired : Bool
  index : Nat
  line : Nat
  column : Nat

structure Lexer where
  cursor : Cursor
  tokens : Array Token := #[]
  /-- The column of the current block, and those of the blocks around it. -/
  indent : Int := -1
  indents : List Int := []
  flowLevel : Nat := 0
  mayBeginKey : Bool := true
  /-- At most one for each level of flow collections. -/
  possibleKeys : List (Nat × PossibleKey) := []

namespace Lexer

def add (lexer : Lexer) (token : Token) : Lexer :=
  { lexer with tokens := lexer.tokens.push token }

/-- A key must end on its own line, and within this many characters. -/
def keyLimit : Nat := 1024

/-- Forgets the possible keys that are too far back. -/
def dropStaleKeys (lexer : Lexer) : Except Fault Lexer :=
  let isStale (key : PossibleKey) : Bool :=
    key.line != lexer.cursor.line || lexer.cursor.index - key.index > keyLimit
  if lexer.possibleKeys.any fun (_, key) => isStale key && key.isRequired then .error .malformed
  else
    .ok { lexer with possibleKeys := lexer.possibleKeys.filter fun (_, key) => !isStale key }

/-- Forgets the possible key of the current level. -/
def dropKey (lexer : Lexer) : Except Fault Lexer :=
  match lexer.possibleKeys.lookup lexer.flowLevel with
  | some key =>
    if key.isRequired then .error .malformed
    else
      let others := lexer.possibleKeys.filter fun (level, _) => level != lexer.flowLevel
      .ok { lexer with possibleKeys := others }
  | none => .ok lexer

/-- Keeps the current place as one where a key may begin. -/
def saveKey (lexer : Lexer) : Except Fault Lexer :=
  if lexer.mayBeginKey then do
    let lexer ← lexer.dropKey
    let key : PossibleKey :=
      { position := lexer.tokens.size
        isRequired := lexer.flowLevel == 0 && lexer.indent == lexer.cursor.column
        index := lexer.cursor.index
        line := lexer.cursor.line
        column := lexer.cursor.column }
    return { lexer with possibleKeys := (lexer.flowLevel, key) :: lexer.possibleKeys }
  else .ok lexer

def closeBlocks (column : Int) : (indents : List Int) → Lexer → Lexer
  | [], lexer => lexer
  | outer :: indents, lexer =>
    if column < lexer.indent then
      closeBlocks column indents { lexer.add .blockEnd with indent := outer, indents }
    else lexer

/-- Ends the blocks that the column is too far left for. -/
def unwind (lexer : Lexer) (column : Int) : Lexer :=
  if lexer.flowLevel = 0 then closeBlocks column lexer.indents lexer else lexer

/-- Opens a block at the column, unless one is open there. -/
def openBlock (lexer : Lexer) (column : Nat) : Bool × Lexer :=
  if lexer.indent < column then
    (true, { lexer with indents := lexer.indent :: lexer.indents, indent := column })
  else (false, lexer)

/-- Opens a block that begins with the next token. -/
def beginBlock (lexer : Lexer) (token : Token) : Except Fault Lexer :=
  if lexer.flowLevel ≠ 0 then .ok lexer
  else if !lexer.mayBeginKey then .error .malformed
  else
    let (opened, lexer) := lexer.openBlock lexer.cursor.column
    .ok (if opened then lexer.add token else lexer)

def advance (lexer : Lexer) (count : Nat) : Lexer :=
  { lexer with cursor := lexer.cursor.advance count }

/-- Passes over spaces, comments and breaks. After a break a key may begin. -/
def skipToToken : (fuel : Nat) → Lexer → Lexer
  | 0, lexer => lexer
  | fuel + 1, lexer =>
    let cursor := lexer.cursor.skip (· == ' ')
    let cursor := if cursor.current = '#' then cursor.skip (!isBreakOrEnd ·) else cursor
    if isBreak cursor.current then
      let mayBeginKey := lexer.mayBeginKey || lexer.flowLevel == 0
      skipToToken fuel { lexer with cursor := cursor.lineBreak.2, mayBeginKey }
    else { lexer with cursor }

def endStream (lexer : Lexer) : Except Fault Lexer := do
  let lexer ← (lexer.unwind (-1)).dropKey
  return { lexer.add .streamEnd with mayBeginKey := false, possibleKeys := [] }

def readDirective (lexer : Lexer) : Except Fault Lexer := do
  let lexer ← (lexer.unwind (-1)).dropKey
  let (directive, cursor) ← Directive.read lexer.cursor
  return { lexer.add (.directive directive) with cursor, mayBeginKey := false }

def readDocumentMark (lexer : Lexer) (token : Token) : Except Fault Lexer := do
  let lexer ← (lexer.unwind (-1)).dropKey
  return { (lexer.add token).advance 3 with mayBeginKey := false }

def openFlow (lexer : Lexer) (token : Token) : Except Fault Lexer := do
  let lexer ← lexer.saveKey
  return { (lexer.add token).advance 1 with flowLevel := lexer.flowLevel + 1, mayBeginKey := true }

def closeFlow (lexer : Lexer) (token : Token) : Except Fault Lexer := do
  let lexer ← lexer.dropKey
  return { (lexer.add token).advance 1 with flowLevel := lexer.flowLevel - 1, mayBeginKey := false }

def readFlowEntry (lexer : Lexer) : Except Fault Lexer := do
  let lexer ← { lexer with mayBeginKey := true }.dropKey
  return (lexer.add .flowEntry).advance 1

def readBlockEntry (lexer : Lexer) : Except Fault Lexer := do
  let lexer ← lexer.beginBlock .blockSequenceStart
  let lexer ← { lexer with mayBeginKey := true }.dropKey
  return (lexer.add .blockEntry).advance 1

def readKey (lexer : Lexer) : Except Fault Lexer := do
  let lexer ← lexer.beginBlock .blockMappingStart
  let lexer ← { lexer with mayBeginKey := lexer.flowLevel == 0 }.dropKey
  return (lexer.add .key).advance 1

/-- A colon: what was kept as a possible key is one now, or a complex key has come to its end. -/
def readValue (lexer : Lexer) : Except Fault Lexer := do
  match lexer.possibleKeys.lookup lexer.flowLevel with
  | some key =>
    let others := lexer.possibleKeys.filter fun (level, _) => level != lexer.flowLevel
    let (opened, lexer) :=
      if lexer.flowLevel = 0 then lexer.openBlock key.column else (false, lexer)
    let begun := if opened then #[Token.blockMappingStart, .key] else #[Token.key]
    let tokens := lexer.tokens.extract 0 key.position ++ begun ++
      lexer.tokens.extract key.position lexer.tokens.size
    let lexer := { lexer with tokens, possibleKeys := others, mayBeginKey := false }
    return (lexer.add .value).advance 1
  | none =>
    let lexer ← lexer.beginBlock .blockMappingStart
    let lexer ← { lexer with mayBeginKey := lexer.flowLevel == 0 }.dropKey
    return (lexer.add .value).advance 1

def readName (lexer : Lexer) (token : String → Token) : Except Fault Lexer := do
  let lexer ← lexer.saveKey
  let (name, cursor) ← anchorName (lexer.cursor.advance 1)
  return { lexer.add (token name) with cursor, mayBeginKey := false }

def readTag (lexer : Lexer) : Except Fault Lexer := do
  let lexer ← lexer.saveKey
  let (handle, suffix, cursor) ← Tag.read lexer.cursor
  return { lexer.add (.tag handle suffix) with cursor, mayBeginKey := false }

def readBlockScalar (lexer : Lexer) (folded : Bool) : Except Fault Lexer := do
  let lexer ← { lexer with mayBeginKey := true }.dropKey
  let (text, cursor) ← Block.text folded lexer.indent (lexer.cursor.advance 1)
  return { lexer.add (.scalar (.whole (.ofList text)) false) with cursor }

def readQuoted (lexer : Lexer) (double : Bool) : Except Fault Lexer := do
  let lexer ← lexer.saveKey
  let start := lexer.cursor.advance 1
  let (codes, cursor) ← Quoted.codesFrom double (start.rest.length + 1) start
  return { lexer.add (.scalar (.ofCodes codes) false) with cursor, mayBeginKey := false }

def readPlain (lexer : Lexer) : Except Fault Lexer := do
  let lexer ← lexer.saveKey
  let inFlow := lexer.flowLevel != 0
  let fuel := lexer.cursor.rest.length + 1
  let (text, ended, cursor) := Plain.textFrom inFlow (lexer.indent + 1) fuel lexer.cursor
  return { lexer.add (.scalar (.whole (.ofList text)) true) with cursor, mayBeginKey := ended }

/-- Characters that begin no plain scalar. -/
def indicators : List Char :=
  ['-', '?', ':', ',', '[', ']', '{', '}', '#', '&', '*', '!', '|', '>', '\'', '"', '%', '@', '`']

/-- Whether a plain scalar begins with the first of two characters. -/
def beginsPlain (inFlow : Bool) (c next : Char) : Bool :=
  (!isGap c && !indicators.contains c) ||
    (!isGap next && (c == '-' || (!inFlow && (c == '?' || c == ':'))))

/-- Reads one token, and with it those that nothing stands for. -/
def step (lexer : Lexer) : Except Fault Lexer := do
  let lexer ← (skipToToken (lexer.cursor.rest.length + 1) lexer).dropStaleKeys
  let cursor := lexer.cursor
  let lexer := lexer.unwind cursor.column
  let c := cursor.current
  let inFlow := lexer.flowLevel != 0
  let standsAlone := inFlow || isGap (cursor.peek 1)
  if c = endMark then lexer.endStream
  else if c = '%' && cursor.column = 0 then lexer.readDirective
  else if cursor.column = 0 && cursor.atMark '-' then lexer.readDocumentMark .documentStart
  else if cursor.column = 0 && cursor.atMark '.' then lexer.readDocumentMark .documentEnd
  else if c = '[' then lexer.openFlow .flowSequenceStart
  else if c = '{' then lexer.openFlow .flowMappingStart
  else if c = ']' then lexer.closeFlow .flowSequenceEnd
  else if c = '}' then lexer.closeFlow .flowMappingEnd
  else if c = ',' then lexer.readFlowEntry
  else if c = '-' && isGap (cursor.peek 1) then lexer.readBlockEntry
  else if c = '?' && standsAlone then lexer.readKey
  else if c = ':' && standsAlone then lexer.readValue
  else if c = '*' then lexer.readName .reference
  else if c = '&' then lexer.readName .anchor
  else if c = '!' then lexer.readTag
  else if c = '|' && !inFlow then lexer.readBlockScalar false
  else if c = '>' && !inFlow then lexer.readBlockScalar true
  else if c = '\'' then lexer.readQuoted false
  else if c = '"' then lexer.readQuoted true
  else if beginsPlain inFlow c (cursor.peek 1) then lexer.readPlain
  else throw .malformed

/-- Reads tokens up to the end or the first fault. -/
def run : (fuel : Nat) → Lexer → List Token × Option Fault
  | 0, lexer => (lexer.tokens.toList, none)
  | fuel + 1, lexer =>
    if lexer.tokens.back? = some .streamEnd then (lexer.tokens.toList, none)
    else
      match lexer.step with
      | .ok lexer => run fuel lexer
      | .error fault => (lexer.tokens.toList, some fault)

end Lexer

/-- Characters that a document may hold. -/
def isAllowed (c : Char) : Bool :=
  let code := c.toNat
  code == 0x09 || code == 0x0a || code == 0x0d || (0x20 ≤ code && code ≤ 0x7e) || code == 0x85 ||
    (0xa0 ≤ code && code ≤ 0xd7ff) || (0xe000 ≤ code && code ≤ 0xfffd) || 0x10000 ≤ code

/-- The tokens of a document, up to the fault that ends them if there is one. A byte order mark at the
very beginning is passed over. -/
def tokens (text : List Char) : List Token × Option Fault :=
  if !text.all isAllowed then ([], some .malformed)
  else
    let start : Cursor := { rest := text }
    let cursor := if start.current = '\uFEFF' then start.advance 1 else start
    Lexer.run (text.length + 2) { cursor }

end FfiBindings.Yaml
