import FfiBindings.Binding.TypeTable
import FfiBindings.Config.Basic
import FfiBindings.Rust.Spelling
import FfiBindings.Text.Numeral
import FfiBindings.Yaml.Document

/-!
Settings from the document that holds them. A setting that is missing, empty or of another kind than
wanted falls back to its default; only a count of workers below one and faulty type aliases are refused.
The keys of type aliases become canonical spellings; of two keys with one spelling the last one counts,
in the place of the first. Halves of characters count as part of a text, which is shown with replacement
characters for them.
-/

set_option autoImplicit false
set_option relaxedAutoImplicit false

namespace FfiBindings.Config

open Yaml (Document Value)

/-- What is refused in a document of settings. -/
inductive Invalid where
  | noMapping
  | workers
  | aliasesNoMapping
  /-- An alias without a type or without a tag, both as messages show them. -/
  | aliasEntry (key tag : String)
  | aliasTag (key tag : String)
  | aliasType (key : String) (error : Rust.SourceError)
  deriving DecidableEq, Repr

def Invalid.message : Invalid → String
  | .noMapping => s!"{fileName} must contain a mapping at the root"
  | .workers => "workers must be a positive integer"
  | .aliasesNoMapping => "type_aliases must be a mapping of Rust type to FFI tag"
  | .aliasEntry key tag => s!"Invalid type alias entry: {key}: {tag}"
  | .aliasTag key tag =>
    s!"type alias {Text.quoted key} targets unknown FFI type {Text.quoted tag}"
  | .aliasType key error =>
    s!"Invalid Rust type in type_aliases: {Text.quoted key} ({error.message})"

/-- The text of a setting, with marks for halves of characters; numbers stand for their text, truth values do
not. -/
def markedTextOf? (mark : Char) : Value → Option String
  | .string text => some text
  | .halved codes => some (Text.withMarks mark codes)
  | .int value => some (toString value)
  | .float value => some (Value.floatNotation.text value)
  | _ => none

def textOf? (value : Value) : Option String :=
  markedTextOf? '\ufffd' value

/-- A text that is not empty. -/
def nonemptyTextOf? (value : Value) : Option String :=
  (textOf? value).filter (!·.isEmpty)

def isHalved : Value → Bool
  | .halved _ => true
  | _ => false

/-- The text of a setting that names a place. With half a character it names none on any disk, as with a
null character. -/
def placeOf? (value : Value) : Option String :=
  (markedTextOf? '\x00' value).filter (!·.isEmpty)

def intOf? : Value → Option Int
  | .int value => some value
  | .string text => (Text.Numeral.read 10 text).toOption
  | _ => none

/-- A pattern in a list of patterns, where truth values do count. With half a character it fits no path, as
with a null character. -/
def patternOf? : Value → Option String
  | .bool value => some (if value then "True" else "False")
  | value => markedTextOf? '\x00' value

/-- The patterns in a setting: one by itself, or those in a list. -/
def patternsOf : Value → List String
  | .string text => [text]
  | .halved codes => [Text.withMarks '\x00' codes]
  | .list _ items => items.filterMap patternOf?
  | .pair first second => [first, second].filterMap patternOf?
  | .bytes content => content.map fun byte => toString byte.toNat
  | _ => []

/-- An alias in canonical spelling. -/
def aliasOf (labels : Value.Labels) (entry : Value × Value) : Except Invalid (String × FfiType) :=
  match nonemptyTextOf? entry.1, nonemptyTextOf? entry.2 with
  | some key, some tag =>
    match FfiType.ofTag? tag with
    | none => .error (.aliasTag key tag)
    | some type =>
      match Rust.canonicalType key with
      | .error error => .error (.aliasType key error)
      | .ok spelling => .ok (spelling, type)
  | _, _ => .error (.aliasEntry (entry.1.text labels) (entry.2.text labels))

def aliasesOf (labels : Value.Labels) (entries : List (Value × Value)) :
    Except Invalid (List (String × FfiType)) := do
  let aliases ← entries.mapM (aliasOf labels)
  return aliases.foldl (fun aliases (key, type) => TypeTable.put key type aliases) []

/-- The entries of the mapping that the value is, or that it refers to. -/
def entriesOf? (labels : Value.Labels) : Value → Option (List (Value × Value))
  | .mapping _ entries => some entries
  | .enclosing label =>
    match labels.lookup label with
    | some (.mapping _ entries) => some entries
    | _ => none
  | _ => none

def typeAliasesOf (labels : Value.Labels) : Value → Except Invalid (List (String × FfiType))
  | .null => .ok []
  | value =>
    match entriesOf? labels value with
    | some entries => aliasesOf labels entries
    | none => .error .aliasesNoMapping

/-- The settings in the entries of a document, for the library at the path. -/
def ofEntries (root : Path) (labels : Value.Labels) (entries : List (Value × Value)) :
    Except Invalid Config := do
  let setting (name : String) : Value := (Value.get? name entries).getD .null
  let place (name default : String) : String := (placeOf? (setting name)).getD default
  let standard : Config := { root }
  let workers := (intOf? (setting "workers")).getD standard.workers
  if workers < 1 then throw .workers
  let typeAliases ← typeAliasesOf labels (setting "type_aliases")
  return {
    root
    sourceDirectory := place "source_dir" standard.sourceDirectory
    outputDirectory := place "output_dir" standard.outputDirectory
    indexFile := place "index_file" standard.indexFile
    binDirectory := (nonemptyTextOf? (setting "bin_dir")).getD standard.binDirectory
    binDirectoryHalved := isHalved (setting "bin_dir")
    platform := textOf? (setting "platform")
    workers
    excludedPaths := patternsOf (setting "exclude_paths")
    typeAliases
    templatesDirectory := (placeOf? (setting "templates_dir")).map root.joinText }

/-- The settings in a document; one that holds nothing leaves the defaults. -/
def ofDocument (root : Path) (document : Document) : Except Invalid Config :=
  match document.root with
  | .null => .ok { root }
  | .mapping _ entries => ofEntries root document.labels entries
  | _ => .error .noMapping

end FfiBindings.Config
