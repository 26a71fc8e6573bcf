import FfiBindings.Text.Blank
import FfiBindings.Text.Line
import FfiBindings.Text.Word

/-!
Merging export lines into the text of an index. The text that is there already is kept as it is;
a line is appended only where no line of the text equals it, and a helper function is appended once,
unless some line declares its name. Appended lines end as the lines of the text do.
-/

set_option autoImplicit false
set_option relaxedAutoImplicit false

namespace FfiBindings.Index

def exportLine (importPath : String) : String :=
  "export * from \"" ++ importPath ++ "\";"

/-- A function that times its argument. -/
def helperLines : List String :=
  ["export function Benchmark<T>(label: string, fn: () => T): T \x7b",
    "    console.time(label);",
    "    const result = fn();",
    "    console.timeEnd(label);",
    "    return result;",
    "\x7d"]

def declarationKeywords : List String := ["function", "const", "let", "var", "class"]

def helperName : String := "Benchmark"

/-- What follows the beginning of a text, if it begins so. -/
def after? : (beginning text : List Char) → Option (List Char)
  | [], text => some text
  | _ :: _, [] => none
  | b :: beginning, c :: text => if b = c then after? beginning text else none

/-- Whether the name of the helper comes next, blanks before it and no word character after it. -/
def namesHelper (text : List Char) : Bool :=
  match text with
  | c :: _ =>
    Text.isBlank c &&
      match after? helperName.toList (text.dropWhile Text.isBlank) with
      | some (next :: _) => !Text.isWord next
      | some [] => true
      | none => false
  | [] => false

/-- Whether a declaration of the helper begins here. -/
def declaresHere (text : List Char) : Bool :=
  declarationKeywords.any fun keyword =>
    match after? keyword.toList text with
    | some rest => namesHelper rest
    | none => false

/-- Whether the helper is declared anywhere in the text; `inWord` says that a word character comes just
before it. -/
def declaresFrom : (inWord : Bool) → List Char → Bool
  | _, [] => false
  | inWord, c :: rest =>
    (!inWord && declaresHere (c :: rest)) || declaresFrom (Text.isWord c) rest

def declaresHelper (line : String) : Bool :=
  declaresFrom false line.toList

/-- The lines that are not among those present, each once. -/
def freshLines : (present lines : List String) → List String
  | _, [] => []
  | present, line :: lines =>
    if present.contains line then freshLines present lines
    else line :: freshLines (line :: present) lines

/-- The export lines that a merge appends. -/
def freshExports (prior : String) (importPaths : List String) : List String :=
  freshLines (Text.splitLines prior) (importPaths.map exportLine)

/-- All lines that a merge appends: exports, and the helper after a blank line. -/
def newLines (prior : String) (importPaths : List String) : List String :=
  let exports := freshExports prior importPaths
  if (Text.splitLines prior ++ exports).any declaresHelper then exports
  else exports ++ (if exports.isEmpty then [] else [""]) ++ helperLines

def hasCrLf : List Char → Bool
  | '\r' :: '\n' :: _ => true
  | _ :: rest => hasCrLf rest
  | [] => false

/-- How the lines of a text end. -/
def lineEnd (prior : String) : String :=
  if hasCrLf prior.toList then "\r\n" else "\n"

/-- The text with what the import paths add to it; an empty line stands between the two. -/
def merge (prior : String) (importPaths : List String) : String :=
  let added := newLines prior importPaths
  if added.isEmpty then prior
  else
    let ending := lineEnd prior
    let block := ending.intercalate added ++ ending
    if prior.isEmpty then block
    else
      let closed := if prior.toList.getLast? = some '\n' then prior else prior ++ ending
      closed ++ ending ++ block

end FfiBindings.Index
