import FfiBindings.Yaml.Schema
import FfiBindings.Yaml.Token.Lexer

/-!
The nodes of a YAML document, from its tokens. An alias stands for the node of its anchor and is replaced
by it, but for an alias inside the collection that it names: that one stays, as a reference to the
collection around it. What a mapping merges into itself is worked out as soon as its entries are known.
-/

set_option autoImplicit false
set_option relaxedAutoImplicit false

namespace FfiBindings.Yaml

inductive Node where
  | scalar (tag : Tag) (wording : Wording)
  | sequence (tag : Tag) (label : Option String) (items : List Node)
  /-- The entries as they are written, and with what is merged into them, unless they merge something
  that is no mapping. -/
  | mapping (tag : Tag) (label : Option String) (entries : List (Node × Node))
      (merged : Option (List (Node × Node)))
  /-- The collection with that label, which this place is inside of. -/
  | enclosing (label : String)

namespace Node

def tag : Node → Tag
  | .scalar tag _ => tag
  | .sequence tag _ _ => tag
  | .mapping tag _ _ _ => tag
  | .enclosing _ => .mapping

def withTag (tag : Tag) : Node → Node
  | .scalar _ wording => .scalar tag wording
  | .sequence _ label items => .sequence tag label items
  | .mapping _ label entries merged => .mapping tag label entries merged
  | .enclosing label => .enclosing label

/-- The entries that a mapping gives to one that merges it. A mapping gives nothing to those inside of
it. -/
def given? : Node → Option (List (Node × Node))
  | .mapping _ _ _ merged => merged
  | .enclosing _ => some []
  | _ => none

/-- The entries that the value of a merge key gives; of several mappings the first one comes last, so
that its entries win. -/
def mergedFrom? : Node → Option (List (Node × Node))
  | .sequence _ _ items => (items.mapM given?).map fun given => given.reverse.flatten
  | node => node.given?

/-- The entries of a mapping after all that it merges. -/
def merge? (entries : List (Node × Node)) : Option (List (Node × Node)) := do
  let merges := entries.filter fun (key, _) => key.tag == .merge
  let given ← merges.mapM fun (_, value) => value.mergedFrom?
  let own := entries.filter fun (key, _) => key.tag != .merge
  return given.flatten ++ own.map fun (key, value) =>
    if key.tag = .value then (key.withTag .string, value) else (key, value)

end Node

/-- What is left of the tokens, and what their names stand for. -/
structure TokenStream where
  tokens : List Token
  /-- What ends the tokens early. -/
  fault : Option Fault
  anchors : List (String × Node) := []
  /-- Labels of the collections that are being read. -/
  openLabels : List String := []
  handles : List (String × String) := [("!", "!"), ("!!", Tag.corePrefix)]

abbrev Reads (α : Type) := StateT TokenStream (Except Fault) α

namespace TokenStream

def peek : Reads Token := do
  let stream ← get
  match stream.tokens with
  | token :: _ => return token
  | [] => throw (stream.fault.getD .malformed)

def skip : Reads Unit :=
  modify fun stream => { stream with tokens := stream.tokens.tail }

def next : Reads Token := do
  let token ← peek
  skip
  return token

/-- Passes over the token if it comes next. -/
def accept (token : Token) : Reads Bool := do
  if (← peek) = token then
    skip
    return true
  else return false

def expect (token : Token) : Reads Unit := do
  if !(← accept token) then throw .malformed

/-- What stands before a node: its anchor and its tag, in either order. -/
def properties : Reads (Option String × Option (Option String × String)) := do
  match ← peek with
  | .anchor name =>
    skip
    match ← peek with
    | .tag handle suffix =>
      skip
      return (some name, some (handle, suffix))
    | _ => return (some name, none)
  | .tag handle suffix =>
    skip
    match ← peek with
    | .anchor name =>
      skip
      return (some name, some (handle, suffix))
    | _ => return (none, some (handle, suffix))
  | _ => return (none, none)

/-- The whole name of a tag. -/
def tagName : Option String × String → Reads String
  | (none, suffix) => return suffix
  | (some handle, suffix) => do
    match (← get).handles.lookup handle with
    | some meaning => return meaning ++ suffix
    | none => throw .malformed

def referred (name : String) : Reads Node := do
  let stream ← get
  match stream.anchors.lookup name with
  | some node => return node
  | none => if stream.openLabels.contains name then return .enclosing name else throw .malformed

/-- An anchor names one node of a document. -/
def checkAnchor (anchor : Option String) : Reads Unit := do
  let stream ← get
  match anchor with
  | some name =>
    if stream.openLabels.contains name || (stream.anchors.lookup name).isSome then
      throw .malformed
  | none => pure ()

def remember (anchor : Option String) (node : Node) : Reads Node := do
  match anchor with
  | some name => modify fun stream => { stream with anchors := (name, node) :: stream.anchors }
  | none => pure ()
  return node

/-- Reads a collection, which its own label stands for meanwhile. -/
def within (anchor : Option String) (read : Reads Node) : Reads Node := do
  let before := (← get).openLabels
  modify fun stream => { stream with openLabels := anchor.toList ++ before }
  let node ← read
  modify fun stream => { stream with openLabels := before }
  remember anchor node

def empty : Node := .scalar .null (.whole "")

/-- The tag of a scalar; an exclamation mark alone asks for what a plain one would have. -/
def scalarTag (name : Option String) (isPlain : Bool) (wording : Wording) : Tag :=
  match name with
  | none => if isPlain then Schema.tagOf wording.shown else .string
  | some name => if name = "!" then Schema.tagOf wording.shown else .ofName name

def collectionTag (name : Option String) (default : Tag) : Tag :=
  match name with
  | none => default
  | some name => if name = "!" then default else .ofName name

mutual

/-- A node; in a block it may be a block itself, and after a key a sequence that is not indented. -/
def node (fuel : Nat) (inBlock mayBeIndentless : Bool) : Reads Node := do
  match fuel with
  | 0 => throw .malformed
  | fuel + 1 =>
    match ← peek with
    | .reference name =>
      skip
      referred name
    | _ =>
      let (anchor, written) ← properties
      let name ← written.mapM tagName
      checkAnchor anchor
      let sequence (items : Reads (List Node)) : Reads Node := within anchor do
        return .sequence (collectionTag name .sequence) anchor (← items)
      let mapping (entries : Reads (List (Node × Node))) : Reads Node := within anchor do
        let entries ← entries
        return .mapping (collectionTag name .mapping) anchor entries (Node.merge? entries)
      match ← peek with
      | .scalar wording isPlain =>
        skip
        remember anchor (.scalar (scalarTag name isPlain wording) wording)
      | .flowSequenceStart =>
        skip
        sequence (flowItems fuel true)
      | .flowMappingStart =>
        skip
        mapping (flowEntries fuel true)
      | .blockSequenceStart =>
        if inBlock then
          skip
          sequence (blockItems fuel)
        else emptyNode anchor name
      | .blockMappingStart =>
        if inBlock then
          skip
          mapping (blockEntries fuel)
        else emptyNode anchor name
      | .blockEntry =>
        if mayBeIndentless then sequence (indentlessItems fuel) else emptyNode anchor name
      | _ => emptyNode anchor name

/-- A node of which nothing but an anchor or a tag is written. -/
def emptyNode (anchor name : Option String) : Reads Node := do
  if anchor.isNone && name.isNone then throw .malformed
  remember anchor (.scalar (scalarTag name true (.whole "")) (.whole ""))

/-- A node, or the empty one where one of the tokens comes next. -/
def nodeUnless (fuel : Nat) (stops : List Token) (inBlock mayBeIndentless : Bool) :
    Reads Node := do
  match fuel with
  | 0 => throw .malformed
  | fuel + 1 =>
    if stops.contains (← peek) then return empty else node fuel inBlock mayBeIndentless

/-- The items of a block sequence up to its end. -/
def blockItems (fuel : Nat) : Reads (List Node) := do
  match fuel with
  | 0 => throw .malformed
  | fuel + 1 =>
    if ← accept .blockEntry then
      let item ← nodeUnless fuel [.blockEntry, .blockEnd] true false
      return item :: (← blockItems fuel)
    else
      expect .blockEnd
      return []

def indentlessItems (fuel : Nat) : Reads (List Node) := do
  match fuel with
  | 0 => throw .malformed
  | fuel + 1 =>
    if ← accept .blockEntry then
      let item ← nodeUnless fuel [.blockEntry, .key, .value, .blockEnd] true false
      return item :: (← indentlessItems fuel)
    else return []

/-- A value after its mark, or the empty node where there is no mark. -/
def valueNode (fuel : Nat) (stops : List Token) (inBlock : Bool) : Reads Node := do
  match fuel with
  | 0 => throw .malformed
  | fuel + 1 =>
    if ← accept .value then nodeUnless fuel stops inBlock inBlock else return empty

def blockEntries (fuel : Nat) : Reads (List (Node × Node)) := do
  match fuel with
  | 0 => throw .malformed
  | fuel + 1 =>
    let stops : List Token := [.key, .value, .blockEnd]
    if ← accept .key then
      let key ← nodeUnless fuel stops true true
      let value ← valueNode fuel stops true
      return (key, value) :: (← blockEntries fuel)
    else
      expect .blockEnd
      return []

/-- The items of a flow sequence up to its end, with a comma before each but the first. An item with a
key is a mapping of one entry. -/
def flowItems (fuel : Nat) (first : Bool) : Reads (List Node) := do
  match fuel with
  | 0 => throw .malformed
  | fuel + 1 =>
    if ← accept .flowSequenceEnd then return []
    if !first then expect .flowEntry
    if ← accept .flowSequenceEnd then return []
    if ← accept .key then
      let key ← nodeUnless fuel [.value, .flowEntry, .flowSequenceEnd] false false
      let value ← valueNode fuel [.flowEntry, .flowSequenceEnd] false
      let item : Node := .mapping .mapping none [(key, value)] (Node.merge? [(key, value)])
      return item :: (← flowItems fuel false)
    else
      let item ← node fuel false false
      return item :: (← flowItems fuel false)

def flowEntries (fuel : Nat) (first : Bool) : Reads (List (Node × Node)) := do
  match fuel with
  | 0 => throw .malformed
  | fuel + 1 =>
    if ← accept .flowMappingEnd then return []
    if !first then expect .flowEntry
    if ← accept .flowMappingEnd then return []
    if ← accept .key then
      let key ← nodeUnless fuel [.value, .flowEntry, .flowMappingEnd] false false
      let value ← valueNode fuel [.flowEntry, .flowMappingEnd] false
      return (key, value) :: (← flowEntries fuel false)
    else
      let key ← node fuel false false
      return (key, empty) :: (← flowEntries fuel false)

end

/-- The directives before a document: at most one version, the first of its kind, and one meaning for each
handle. -/
def directives : (fuel : Nat) → (hasVersion : Bool) → (handles : List (String × String)) →
    Reads Unit
  | 0, _, _ => throw .malformed
  | fuel + 1, hasVersion, handles => do
    match ← peek with
    | .directive (.version major) =>
      if hasVersion || major ≠ 1 then throw .malformed
      skip
      directives fuel true handles
    | .directive (.tag handle meaning) =>
      if (handles.lookup handle).isSome then throw .malformed
      skip
      directives fuel hasVersion ((handle, meaning) :: handles)
    | .directive .other =>
      skip
      directives fuel hasVersion handles
    | _ => modify fun stream => { stream with handles := handles ++ stream.handles }

/-- Passes over the marks after a document. -/
def documentEnds : (fuel : Nat) → Reads Unit
  | 0 => throw .malformed
  | fuel + 1 => do
    if ← accept .documentEnd then documentEnds fuel

def isDocumentStart : Token → Bool
  | .directive _ => true
  | .documentStart => true
  | _ => false

def isDocumentBound (token : Token) : Bool :=
  isDocumentStart token || token == .documentEnd || token == .streamEnd

/-- The node of the only document, if there is one. -/
def document (fuel : Nat) : Reads (Option Node) := do
  if (← peek) = .streamEnd then return none
  if isDocumentStart (← peek) then
    directives fuel false []
    expect .documentStart
    let root ← if isDocumentBound (← peek) then pure empty else node fuel true false
    documentEnds fuel
    expect .streamEnd
    return some root
  else
    let root ← node fuel true false
    documentEnds fuel
    expect .streamEnd
    return some root

end TokenStream

/-- The root node of a document, with the nodes of its anchors. -/
def Node.ofText (text : List Char) : Except Fault (Option Node × List (String × Node)) := do
  let (tokens, fault) := tokens text
  let (root, stream) ← (TokenStream.document (3 * tokens.length + 3)).run { tokens, fault }
  return (root, stream.anchors)

end FfiBindings.Yaml
