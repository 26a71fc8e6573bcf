import FfiBindings.Path
import FfiBindings.Text.Blank
import FfiBindings.Text.Glob

/-!
Ignore rules. A rule with a slash in it, or with one before it, is matched against the whole path below
the library root, any other against every part of the path; a rule with a slash after it holds for
directories alone.
-/

set_option autoImplicit false
set_option relaxedAutoImplicit false

namespace FfiBindings

structure IgnoreRule where
  pattern : String
  directoryOnly : Bool
  anchored : Bool
  hasSlash : Bool
  deriving DecidableEq, Repr

namespace IgnoreRule

/-- The rule that a line of text states, none for a blank line. -/
def ofText? (text : String) : Option IgnoreRule :=
  let stripped := Text.stripChars text.toList
  if stripped.isEmpty then none
  else
    let directoryOnly := stripped.getLast? == some '/'
    let withoutEnd := if directoryOnly then stripped.dropLast else stripped
    let anchored := withoutEnd.head? == some '/'
    let pattern := if anchored then withoutEnd.tail else withoutEnd
    some ⟨.ofList pattern, directoryOnly, anchored, pattern.contains '/'⟩

/-- Whether the rule holds for a path below the library root. -/
def applies (rule : IgnoreRule) (path : String) (isDirectory : Bool) : Bool :=
  if rule.pattern.isEmpty || (rule.directoryOnly && !isDirectory) then false
  else if rule.anchored || rule.hasSlash then
    Text.globMatches rule.pattern path ||
      (rule.directoryOnly && (rule.pattern ++ "/").toList.isPrefixOf path.toList)
  else (Path.splitSlashes path.toList).any fun part => Text.globMatches rule.pattern (.ofList part)

end IgnoreRule

end FfiBindings
