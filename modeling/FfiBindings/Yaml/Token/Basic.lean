import FfiBindings.Text.Quoted

/-!
The tokens of a YAML document. Keys and the beginnings of block mappings are tokens too, although
nothing may stand for them in the text.
-/

set_option autoImplicit false
set_option relaxedAutoImplicit false

namespace FfiBindings.Yaml

inductive Directive where
  | version (major : Nat)
  | tag (handle tagPrefix : String)
  | other
  deriving DecidableEq, Repr

/-- What a scalar says. Escapes may name halves of characters, with which it is no text. -/
inductive Wording where
  | whole (text : String)
  | halved (codes : List Nat)
  deriving DecidableEq, Repr

namespace Wording

def ofCodes (codes : List Nat) : Wording :=
  if codes.any Text.isHalf then .halved codes else .whole (.ofList (codes.map Char.ofNat))

/-- The text, with a replacement character for each half of a character. -/
def shown : Wording → String
  | .whole text => text
  | .halved codes => Text.withMarks '\ufffd' codes

end Wording

inductive Token where
  | directive (directive : Directive)
  | documentStart
  | documentEnd
  | streamEnd
  | blockSequenceStart
  | blockMappingStart
  | blockEnd
  | flowSequenceStart
  | flowSequenceEnd
  | flowMappingStart
  | flowMappingEnd
  | blockEntry
  | flowEntry
  | key
  | value
  | reference (name : String)
  | anchor (name : String)
  /-- A tag as written; without a handle it is a whole tag. -/
  | tag (handle : Option String) (suffix : String)
  /-- A plain scalar has no quotes and is no block. -/
  | scalar (wording : Wording) (isPlain : Bool)
  deriving DecidableEq, Repr

end FfiBindings.Yaml
