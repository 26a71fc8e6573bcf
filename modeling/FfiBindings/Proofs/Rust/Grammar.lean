import FfiBindings.Proofs.Rust.Nesting
import FfiBindings.Rust.Item

/-!
A grammar of items and what it means. A syntax tree holds its tokens with all that makes them well
formed, so there are no ill-formed trees; `Items.tokens` puts the tokens together again, wherever they
stand in the lines of a source. The meaning is told on the tree alone (`Items.findings`): a function is
found where it is written, at any depth of modules, and nothing is found in blocks, imports, macro calls
or any other item. A function is exported when `pub` stands before it by itself and when it is `extern`
or has the attribute `no_mangle`; a generic one has no symbol to bind.
-/

set_option autoImplicit false
set_option relaxedAutoImplicit false

namespace FfiBindings.Rust

/-- The brackets that group tokens everywhere; the angle brackets do so in signatures alone. -/
def Bracket.delimiters : List Bracket := [.paren, .square, .brace]

namespace Grammar

abbrev Mark (text : String) := { token : Token // token.isPunct text = true }

abbrev Keyword (text : String) := { token : Token // token.isIdent text = true }

abbrev Ident := { token : Token // token.kind = .ident }

/-- The words that begin an item or end its modifiers; none of them names anything. -/
def reserved : List String := ["pub", "extern", "fn", "impl", "trait"]

abbrev Name := { token : Token // token.kind = .ident ∧ token.text ∉ reserved }

/-- The convention after `extern`, as in `extern "C"`. -/
abbrev Abi := { token : Token // token.kind = .string }

structure Group (bracket : Bracket) (among : List Bracket) where
  opening : Token
  inside : List Token
  closing : Token
  opens : bracket.opens opening = true
  nested : Nested among anywhere inside
  closes : bracket.closes closing = true

def Group.tokens {bracket : Bracket} {among : List Bracket} (group : Group bracket among) :
    List Token :=
  group.opening :: (group.inside ++ [group.closing])

/-! ### What stands before an item -/

/-- An attribute of the item that follows, or with an exclamation mark of the one around it. -/
structure Attribute where
  hash : Mark "#"
  bang : Option (Mark "!")
  group : Group .square Bracket.delimiters

namespace Attribute

def tokens (written : Attribute) : List Token :=
  written.hash.1 :: (written.bang.toList.map Subtype.val ++ written.group.tokens)

def unmangles (written : Attribute) : Bool :=
  written.bang.isNone && written.group.inside.any (·.isIdent "no_mangle")

end Attribute

inductive Visibility where
  | inherited
  | bare (keyword : Keyword "pub")
  | restricted (keyword : Keyword "pub") (scope : Group .paren Bracket.delimiters)

namespace Visibility

def tokens : Visibility → List Token
  | .inherited => []
  | .bare keyword => [keyword.1]
  | .restricted keyword scope => keyword.1 :: scope.tokens

def isPublic : Visibility → Bool
  | .bare _ => true
  | .inherited | .restricted _ _ => false

end Visibility

inductive Qualifier where
  | word (token : Token) (h : ∃ text ∈ ["unsafe", "const", "async"], token.isIdent text = true)
  | foreign (keyword : Keyword "extern") (abi : Option Abi)

namespace Qualifier

def tokens : Qualifier → List Token
  | .word token _ => [token]
  | .foreign keyword abi => keyword.1 :: abi.toList.map Subtype.val

def isForeign : Qualifier → Bool
  | .word _ _ => false
  | .foreign _ _ => true

end Qualifier

/-- All that may stand before the word or name that an item is told by. -/
structure Lead where
  attributes : List Attribute
  visibility : Visibility
  qualifiers : List Qualifier

namespace Lead

def tokens (lead : Lead) : List Token :=
  lead.attributes.flatMap Attribute.tokens ++
    (lead.visibility.tokens ++ lead.qualifiers.flatMap Qualifier.tokens)

def modifiers (lead : Lead) : Modifiers where
  isPublic := lead.visibility.isPublic
  hasForeignAbi := lead.qualifiers.any Qualifier.isForeign
  isUnmangled := lead.attributes.any Attribute.unmangles

end Lead

/-! ### Functions -/

/-- Tokens that may stand in a pattern outside all brackets. -/
def inPattern (token : Token) : Bool :=
  !token.isPunct "," && !token.isPunct ":"

def inParameterType (token : Token) : Bool :=
  !token.isPunct ","

structure Parameter where
  pattern : List Token
  colon : Mark ":"
  type : List Token
  nestedPattern : Nested Bracket.all inPattern pattern
  nestedType : Nested Bracket.all inParameterType type
  hasType : type ≠ []

namespace Parameter

def tokens (parameter : Parameter) : List Token :=
  parameter.pattern ++ parameter.colon.1 :: parameter.type

/-- The names in a pattern, the last of which names the parameter. -/
def names (parameter : Parameter) : List Token :=
  parameter.pattern.filter fun token => token.kind == .ident && token.text != "mut"

def meaning (parameter : Parameter) : Rust.Parameter where
  type := spell parameter.type
  name := (parameter.names.getLast?.map Token.text).getD ""

end Parameter

/-- Parameters with commas between them, and perhaps one more after the last. -/
inductive Parameters where
  | none
  | last (parameter : Parameter)
  | more (parameter : Parameter) (comma : Mark ",") (rest : Parameters)

namespace Parameters

def tokens : Parameters → List Token
  | .none => []
  | .last parameter => parameter.tokens
  | .more parameter comma rest => parameter.tokens ++ comma.1 :: rest.tokens

def meaning : Parameters → List Rust.Parameter
  | .none => []
  | .last parameter => [parameter.meaning]
  | .more parameter _ rest => parameter.meaning :: rest.meaning

end Parameters

def inReturnType (token : Token) : Bool :=
  !endsReturnType token

structure Returned where
  arrow : Mark "->"
  type : List Token
  nested : Nested Bracket.all inReturnType type
  hasType : type ≠ []

def Returned.tokens (returned : Returned) : List Token :=
  returned.arrow.1 :: returned.type

def inWhereClause (token : Token) : Bool :=
  !token.isPunct "\x7b" && !token.isPunct ";"

structure WhereClause where
  keyword : Keyword "where"
  bounds : List Token
  nested : Nested Bracket.all inWhereClause bounds

def WhereClause.tokens (clause : WhereClause) : List Token :=
  clause.keyword.1 :: clause.bounds

inductive Body where
  | semicolon (mark : Mark ";")
  | block (braces : Group .brace [.brace])

def Body.tokens : Body → List Token
  | .semicolon mark => [mark.1]
  | .block braces => braces.tokens

structure Function where
  lead : Lead
  keyword : Keyword "fn"
  name : Ident
  generics : Option (Group .angle Bracket.all)
  opening : Mark "("
  parameters : Parameters
  closing : Mark ")"
  returned : Option Returned
  clause : Option WhereClause
  body : Body

namespace Function

/-- The tokens from the parameters on. -/
def tokensFromParameters (function : Function) : List Token :=
  function.opening.1 :: (function.parameters.tokens ++ function.closing.1 ::
    (function.returned.elim [] Returned.tokens ++
      (function.clause.elim [] WhereClause.tokens ++ function.body.tokens)))

def tokens (function : Function) : List Token :=
  function.lead.tokens ++ function.keyword.1 :: function.name.1 ::
    (function.generics.elim [] Group.tokens ++ function.tokensFromParameters)

def meaning (function : Function) : ExportedFunction where
  name := Signature.plainName function.name.1.text
  parameters := function.parameters.meaning
  returnType := function.returned.elim "void" fun returned => spell returned.type
  line := function.keyword.1.line

/-- What a reader of the exports learns of the function. -/
def finding? (function : Function) : Option Finding :=
  if !function.lead.modifiers.exports then none
  else if function.generics.isSome then
    some (.genericSkipped function.meaning.name function.meaning.line)
  else some (.exported function.meaning)

end Function

/-! ### Other items -/

def inHeader (token : Token) : Bool :=
  !token.isPunct "\x7b" && !token.isPunct ";"

/-- An `impl` or `trait` block. -/
structure Block where
  lead : Lead
  keyword : Token
  header : List Token
  body : Group .brace Bracket.delimiters
  isBlock : keyword.isIdent "impl" = true ∨ keyword.isIdent "trait" = true
  nestedHeader : Nested Bracket.delimiters inHeader header

def Block.tokens (block : Block) : List Token :=
  block.lead.tokens ++ block.keyword :: (block.header ++ block.body.tokens)

/-- A block of functions that are imported. -/
structure Imports where
  lead : Lead
  keyword : Keyword "extern"
  abi : Option Abi
  body : Group .brace Bracket.delimiters

def Imports.tokens (imports : Imports) : List Token :=
  imports.lead.tokens ++ imports.keyword.1 ::
    (imports.abi.toList.map Subtype.val ++ imports.body.tokens)

structure MacroCall where
  lead : Lead
  name : Name
  bang : Mark "!"
  defined : Option Ident
  bracket : Bracket
  isDelimiter : bracket ∈ Bracket.delimiters
  body : Group bracket Bracket.delimiters

def MacroCall.tokens (call : MacroCall) : List Token :=
  call.lead.tokens ++ call.name.1 :: call.bang.1 ::
    (call.defined.toList.map Subtype.val ++ call.body.tokens)

/-- Tokens that can neither begin a function with a name nor a block that may hold some. -/
structure HoldsNoFunction (tokens : List Token) : Prop where
  noBlock : ∀ token ∈ tokens, token.isIdent "impl" = false ∧ token.isIdent "trait" = false
  noName : ∀ keyword name : Token, [keyword, name] <:+: tokens → keyword.isIdent "fn" = true →
    name.kind ≠ .ident

/-- Any other item, or several of them. -/
structure Other where
  before : List Token
  last : Token
  ends : last.isPunct ";" = true ∨ last.isPunct "\x7d" = true
  nested : Nested Bracket.delimiters anywhere (before ++ [last])
  holdsNoFunction : HoldsNoFunction (before ++ [last])

def Other.tokens (other : Other) : List Token :=
  other.before ++ [other.last]

/-- A module up to its opening brace. -/
structure ModuleHeader where
  lead : Lead
  keyword : Keyword "mod"
  name : Name
  opening : Mark "\x7b"

def ModuleHeader.tokens (header : ModuleHeader) : List Token :=
  header.lead.tokens ++ [header.keyword.1, header.name.1, header.opening.1]

/-- Items one after the other, where modules hold items again. -/
inductive Items where
  | none
  | function (item : Function) (rest : Items)
  | block (item : Block) (rest : Items)
  | imports (item : Imports) (rest : Items)
  | macroCall (item : MacroCall) (rest : Items)
  | other (item : Other) (rest : Items)
  | module (header : ModuleHeader) (inside : Items) (closing : Mark "\x7d") (rest : Items)

namespace Items

def tokens : Items → List Token
  | .none => []
  | .function item rest => item.tokens ++ rest.tokens
  | .block item rest => item.tokens ++ rest.tokens
  | .imports item rest => item.tokens ++ rest.tokens
  | .macroCall item rest => item.tokens ++ rest.tokens
  | .other item rest => item.tokens ++ rest.tokens
  | .module header inside closing rest =>
    header.tokens ++ (inside.tokens ++ closing.1 :: rest.tokens)

def findings : Items → List Finding
  | .none => []
  | .function item rest => item.finding?.toList ++ rest.findings
  | .block _ rest | .imports _ rest | .macroCall _ rest | .other _ rest => rest.findings
  | .module _ inside _ rest => inside.findings ++ rest.findings

/-- The exported functions of the items, in the order in which they are written. -/
def exports (items : Items) : List ExportedFunction :=
  items.findings.filterMap Finding.function?

end Items

end Grammar

end FfiBindings.Rust
