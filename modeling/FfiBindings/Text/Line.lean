/-!
Lines of a text. A line ends at a line boundary: a line feed, a carriage return (with a following
line feed one boundary, not two), a vertical tab, a form feed, one of the separators U+001C to U+001E,
the next-line character, or one of the separators U+2028 and U+2029. A boundary at the end of the text
begins no further line.
-/

set_option autoImplicit false
set_option relaxedAutoImplicit false

namespace FfiBindings.Text

def isLineBoundary (c : Char) : Bool :=
  let code := c.toNat
  (0x0a ≤ code && code ≤ 0x0d) || (0x1c ≤ code && code ≤ 0x1e) || code == 0x85 ||
    code == 0x2028 || code == 0x2029

/-- The lines of a text, where the first argument holds the characters of the line already begun, the
last one first, and is `none` where no line is. -/
def linesFrom : Option (List Char) → List Char → List (List Char)
  | none, [] => []
  | some line, [] => [line.reverse]
  | line, '\r' :: '\n' :: rest => (line.getD []).reverse :: linesFrom none rest
  | line, c :: rest =>
    if isLineBoundary c then (line.getD []).reverse :: linesFrom none rest
    else linesFrom (some (c :: line.getD [])) rest

def splitLines (s : String) : List String :=
  (linesFrom none s.toList).map .ofList

/-- Both spellings of a line end that use a carriage return become a line feed. -/
def unifyNewlines : List Char → List Char
  | [] => []
  | '\r' :: '\n' :: rest => '\n' :: unifyNewlines rest
  | c :: rest => (if c = '\r' then '\n' else c) :: unifyNewlines rest

def withUnifiedNewlines (s : String) : String :=
  .ofList (unifyNewlines s.toList)

end FfiBindings.Text
