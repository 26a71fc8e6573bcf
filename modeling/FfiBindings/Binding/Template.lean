import FfiBindings.Binding.Basic

/-!
Templates for the text of a binding: fixed text, values of the binding, and parts that are repeated for
every symbol. `Template.stock` is the layout that is used where a library brings none of its own; it
names only what every binding has, so it renders every binding (`render_stock`).
-/

set_option autoImplicit false
set_option relaxedAutoImplicit false

namespace FfiBindings

namespace Template

inductive Owner where
  | binding
  | symbol
  deriving DecidableEq, Repr

/-- A value that a template asks for; the separators stand between the elements of a list. -/
inductive Value where
  | moduleName
  | libraryStem
  | binDir
  | exportNames (separator : String)
  | symbolName
  | symbolReturns
  | symbolReturnType
  | symbolArgumentTypes (separator : String)
  | noProperty (owner : Owner) (property : String)
  | noVariable (name : String)
  deriving DecidableEq, Repr

inductive Part where
  | text (text : String)
  | value (value : Value)
  deriving DecidableEq, Repr

inductive Block where
  | part (part : Part)
  | eachSymbol (body : List Part)
  deriving DecidableEq, Repr

/-- A value that the binding does not have. -/
inductive Undefined where
  | variable (name : String)
  | property (owner : Owner) (name : String)
  deriving DecidableEq, Repr

def Owner.describe : Owner → String
  | .binding => "bunbind.emitter.BindingModule object"
  | .symbol => "bunbind.emitter.SymbolBinding object"

def Undefined.message : Undefined → String
  | .variable name => s!"{Text.quoted name} is undefined"
  | .property owner name =>
    s!"{Text.quoted owner.describe} has no attribute {Text.quoted name}"

/-- The expression that names an interface type in a binding. -/
def typeExpression (type : FfiType) : String :=
  "FFIType." ++ type.tag

def ofSymbol (symbol : Option Symbol) (read : Symbol → String) : Except Undefined String :=
  match symbol with
  | some symbol => .ok (read symbol)
  | none => .error (.variable "symbol")

/-- The text of a value; inside a repeated part there is a symbol. -/
def Value.read (binding : Binding) (symbol : Option Symbol) : Value → Except Undefined String
  | .moduleName => .ok binding.moduleName
  | .libraryStem => .ok binding.libraryStem
  | .binDir => .ok binding.binDir
  | .exportNames separator => .ok (separator.intercalate binding.exportNames)
  | .symbolName => ofSymbol symbol Symbol.name
  | .symbolReturns => ofSymbol symbol (·.returns.tag)
  | .symbolReturnType => ofSymbol symbol (typeExpression ·.returns)
  | .symbolArgumentTypes separator =>
    ofSymbol symbol fun symbol => separator.intercalate (symbol.arguments.map typeExpression)
  | .noProperty .binding property => .error (.property .binding property)
  | .noProperty .symbol property =>
    match symbol with
    | some _ => .error (.property .symbol property)
    | none => .error (.variable "symbol")
  | .noVariable name => .error (.variable name)

def Part.render (binding : Binding) (symbol : Option Symbol) : Part → Except Undefined String
  | .text content => .ok content
  | .value asked => asked.read binding symbol

def renderParts (binding : Binding) (symbol : Option Symbol) (parts : List Part) :
    Except Undefined String :=
  (parts.mapM (Part.render binding symbol)).map String.join

def Block.render (binding : Binding) : Block → Except Undefined String
  | .part single => single.render binding none
  | .eachSymbol body =>
    (binding.symbols.mapM fun symbol => renderParts binding (some symbol) body).map String.join

end Template

/-- The layout of a binding. -/
abbrev Template := List Template.Block

namespace Template

def render (template : Template) (binding : Binding) : Except Undefined String :=
  (template.mapM (Block.render binding)).map String.join

/-- One entry of the table of symbols. -/
def stockEntry : List Part :=
  [.text "  ", .value .symbolName, .text ": \x7b\n    args: [", .value (.symbolArgumentTypes ", "),
    .text "],\n    returns: ", .value .symbolReturnType, .text ",\n  \x7d,\n"]

def stockExport : List Part :=
  [.text "export const ", .value .symbolName, .text " = lib.symbols.", .value .symbolName,
    .text ";\n"]

/-- Opens the library of the module and exports each of its symbols under its own name. -/
def stock : Template :=
  [.part (.text "import \x7b dlopen, FFIType, suffix \x7d from \"bun:ffi\";\n\nconst BASE_DIR = \""),
    .part (.value .binDir),
    .part (.text "\";\n\nconst lib = dlopen(`$\x7bBASE_DIR\x7d/"),
    .part (.value .libraryStem),
    .part (.text ".$\x7bsuffix\x7d`, \x7b\n"),
    .eachSymbol stockEntry,
    .part (.text "\x7d);\n\n"),
    .eachSymbol stockExport]

def entryText (symbol : Symbol) : String :=
  String.join ["  ", symbol.name, ": \x7b\n    args: [",
    ", ".intercalate (symbol.arguments.map typeExpression), "],\n    returns: ",
    typeExpression symbol.returns, ",\n  \x7d,\n"]

def exportText (symbol : Symbol) : String :=
  String.join ["export const ", symbol.name, " = lib.symbols.", symbol.name, ";\n"]

theorem mapM_ok {α β ε : Type} (f : α → β) (xs : List α) :
    xs.mapM (fun x => (Except.ok (f x) : Except ε β)) = .ok (xs.map f) := by
  induction xs with
  | nil => rfl
  | cons x xs ih => simp [ih, bind, Except.bind, pure, Except.pure]

theorem render_stock (binding : Binding) :
    stock.render binding = .ok (String.join
      ["import \x7b dlopen, FFIType, suffix \x7d from \"bun:ffi\";\n\nconst BASE_DIR = \"",
        binding.binDir, "\";\n\nconst lib = dlopen(`$\x7bBASE_DIR\x7d/", binding.libraryStem,
        ".$\x7bsuffix\x7d`, \x7b\n", String.join (binding.symbols.map entryText), "\x7d);\n\n",
        String.join (binding.symbols.map exportText)]) := by
  have hentry : (fun symbol => renderParts binding (some symbol) stockEntry) =
      fun symbol => .ok (entryText symbol) := by
    funext symbol
    rfl
  have hexport : (fun symbol => renderParts binding (some symbol) stockExport) =
      fun symbol => .ok (exportText symbol) := by
    funext symbol
    rfl
  simp [render, stock, Block.render, Part.render, Value.read, hentry, hexport, mapM_ok, bind,
    Except.bind, pure, Except.pure, Except.map]

end Template

end FfiBindings
