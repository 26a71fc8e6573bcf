import FfiBindings.Binding.Template
import FfiBindings.Text.Line
import FfiBindings.Text.Utf8
import FfiBindings.Text.Word
import FfiBindings.Tree.Disk

/-!
Templates in files. Values stand in double braces, loops over the symbols between braces with a percent
sign, and comments between braces with a number sign; everything else is text. A loop mark or a comment takes
with it the blanks before it on its line and one line feed after it, so that a line of its own leaves no
trace. A library may bring a file with its own template; without one it has the stock template.
-/

set_option autoImplicit false
set_option relaxedAutoImplicit false

namespace FfiBindings.Template

/-- The words between braces. -/
inductive Word where
  | name (text : String)
  | string (text : String)
  | sign (c : Char)
  deriving DecidableEq, Repr

/-- What stands between braces, or the text before them. -/
inductive Piece where
  | part (part : Part)
  | loopStart
  | loopEnd
  deriving DecidableEq, Repr

/-- The words up to the closing sign and a brace, with what follows them. A string has no backslash. -/
def wordsUntil (closing : Char) : (fuel : Nat) → List Char → Option (List Word × List Char)
  | 0, _ => none
  | fuel + 1, cs =>
    match cs with
    | [] => none
    | c :: rest =>
      if c = closing && rest.head? = some '}' then some ([], rest.tail)
      else if Text.isBlank c then wordsUntil closing fuel rest
      else
        let (word?, rest) :=
          if c = '"' || c = '\'' then
            let inside := rest.takeWhile (· != c)
            let after := rest.drop inside.length
            (if inside.contains '\\' || after.isEmpty then none
              else some (.string (.ofList inside)), after.tail)
          else if Text.isWordStart c then
            (some (Word.name (.ofList (cs.takeWhile Text.isWord))), cs.dropWhile Text.isWord)
          else (some (.sign c), rest)
        word?.bind fun word =>
          (wordsUntil closing fuel rest).map fun (words, rest) => (word :: words, rest)

/-- The names that have a meaning without being variables of a template. -/
def ownNames : List String :=
  ["module", "symbol", "loop", "self", "true", "false", "none", "True", "False", "None", "and", "or", "not", "in",
    "is", "if", "else", "range", "dict", "lipsum", "cycler", "joiner", "namespace"]

/-- The value that the words ask for, where there is one of that form. -/
def valueOf? : List Word → Option Value
  | [.name word] => if ownNames.contains word then none else some (.noVariable word)
  | [.name "module", .sign '.', .name property] =>
    match property with
    | "module_name" => some .moduleName
    | "library_stem" => some .libraryStem
    | "bin_dir" => some .binDir
    | "symbols" | "export_names" => none
    | property => some (.noProperty .binding property)
  | [.name "module", .sign '.', .name "export_names", .sign '|', .name "join", .sign '(',
      .string separator, .sign ')'] => some (.exportNames separator)
  | [.name "symbol", .sign '.', .name property] =>
    match property with
    | "name" => some .symbolName
    | "returns" => some .symbolReturns
    | "args" => none
    | property => some (.noProperty .symbol property)
  | [.name "symbol", .sign '.', .name "returns", .sign '|', .name "ffi_type"] =>
    some .symbolReturnType
  | [.name "symbol", .sign '.', .name "args", .sign '|', .name "map", .sign '(',
      .string "ffi_type", .sign ')', .sign '|', .name "join", .sign '(', .string separator,
      .sign ')'] => some (.symbolArgumentTypes separator)
  | _ => none

def loopMark? (words : List Word) : Option Piece :=
  if words = [.name "for", .name "symbol", .name "in", .name "module", .sign '.', .name "symbols"]
  then some .loopStart
  else if words = [.name "endfor"] then some .loopEnd
  else none

/-- Drops the blanks that end a text, where nothing else is on their line. -/
def withoutMargin (atLineStart : Bool) (text : List Char) : List Char :=
  let line := (text.reverse.takeWhile (· != '\n')).reverse
  let before := text.take (text.length - line.length)
  if line.all Text.isBlank && (atLineStart || !before.isEmpty) then before else text

def textPiece (text : List Char) : List Piece :=
  if text.isEmpty then [] else [.part (.text (.ofList text))]

/-- A sign at an end of a comment asks for other margins than usual. -/
def isMarginSign (c : Char) : Bool :=
  c = '-' || c = '+'

/-- What follows a comment, of which `last` is the character before. -/
def afterComment? (last : Option Char) : List Char → Option (List Char)
  | '#' :: '}' :: rest => if last.any isMarginSign then none else some rest
  | c :: rest => afterComment? (some c) rest
  | [] => none

/-- The pieces of a template, where `text` is the text before the rest, last character first. -/
def piecesFrom (atLineStart : Bool) (text : List Char) : (fuel : Nat) → List Char →
    Option (List Piece)
  | 0, _ => none
  | _, [] => some (textPiece text.reverse)
  | fuel + 1, '{' :: '{' :: rest => do
    let (words, rest) ← wordsUntil '}' (rest.length + 1) rest
    let value ← valueOf? words
    return textPiece text.reverse ++ .part (.value value) :: (← piecesFrom false [] fuel rest)
  | fuel + 1, '{' :: '%' :: rest => do
    let (words, rest) ← wordsUntil '%' (rest.length + 1) rest
    let mark ← loopMark? words
    let endsLine := rest.head? = some '\n'
    let pieces ← piecesFrom endsLine [] fuel (if endsLine then rest.tail else rest)
    return textPiece (withoutMargin atLineStart text.reverse) ++ mark :: pieces
  | fuel + 1, '{' :: '#' :: rest => do
    let rest ← if rest.head?.any isMarginSign then none else afterComment? none rest
    let endsLine := rest.head? = some '\n'
    let pieces ← piecesFrom endsLine [] fuel (if endsLine then rest.tail else rest)
    return textPiece (withoutMargin atLineStart text.reverse) ++ pieces
  | fuel + 1, c :: rest => piecesFrom atLineStart (c :: text) fuel rest

/-- The blocks of the pieces, the first of which may belong to a loop that has begun. -/
def blocksFrom : (loop : Option (List Part)) → List Piece → Option Template
  | none, [] => some []
  | none, .part single :: rest => (blocksFrom none rest).map (.part single :: ·)
  | none, .loopStart :: rest => blocksFrom (some []) rest
  | some body, .part single :: rest => blocksFrom (some (body ++ [single])) rest
  | some body, .loopEnd :: rest => (blocksFrom none rest).map (.eachSymbol body :: ·)
  | _, _ => none

/-- The template in a text, where it is one. -/
def ofText? (text : String) : Option Template :=
  (piecesFrom true [] (text.length + 1) text.toList).bind (blocksFrom none)

/-- The lines of the file that the stock template stands in. -/
def stockLines : List String :=
  ["import \x7b dlopen, FFIType, suffix \x7d from \"bun:ffi\";", "",
    "const BASE_DIR = \"\x7b\x7b module.bin_dir \x7d\x7d\";", "",
    "const lib = dlopen(`$\x7bBASE_DIR\x7d/\x7b\x7b module.library_stem \x7d\x7d.$\x7bsuffix\x7d`, \x7b",
    "\x7b% for symbol in module.symbols %\x7d",
    "  \x7b\x7b symbol.name \x7d\x7d: \x7b",
    "    args: [\x7b\x7b symbol.args | map(\"ffi_type\") | join(\", \") \x7d\x7d],",
    "    returns: \x7b\x7b symbol.returns | ffi_type \x7d\x7d,",
    "  \x7d,",
    "\x7b% endfor %\x7d",
    "\x7d);", "",
    "\x7b% for symbol in module.symbols %\x7d",
    "export const \x7b\x7b symbol.name \x7d\x7d = lib.symbols.\x7b\x7b symbol.name \x7d\x7d;",
    "\x7b% endfor %\x7d"]

def stockText : String :=
  .ofList (stockLines.flatMap fun line => line.toList ++ ['\n'])

theorem ofText?_ofList (chars : List Char) :
    ofText? (.ofList chars) = (piecesFrom true [] (chars.length + 1) chars).bind (blocksFrom none) := by
  rw [ofText?, String.toList_ofList, String.length_ofList]

/-- The stock template is what its file comes to. -/
theorem ofText?_stockText : ofText? stockText = some stock := by
  rw [stockText, ofText?_ofList]
  decide +kernel

/-- Why a binding has no text. -/
inductive Fault where
  | file (error : FileError)
  | encoding (fault : Text.Utf8.Fault)
  | malformed
  | undefined (error : Undefined)
  deriving DecidableEq, Repr

def Fault.message : Fault → String
  | .file error => error.message
  | .encoding fault => fault.message
  | .malformed => "malformed template"
  | .undefined error => error.message

/-- The name of a template file. -/
def fileName : String := "binding.ts.j2"

/-- The template in the directory, or the stock template. -/
def load (disk : Disk) (directory : Option Path) : Except Fault Template :=
  match (directory.map (·.child fileName)).filter disk.isFile with
  | none => .ok stock
  | some path =>
    match disk.read path with
    | .error error => .error (.file error)
    | .ok bytes =>
      match Text.Utf8.decode bytes with
      | .error fault => .error (.encoding fault)
      | .ok text =>
        match ofText? (Text.withUnifiedNewlines text) with
        | some template => .ok template
        | none => .error .malformed

end FfiBindings.Template
