import FfiBindings.Rust.Signature
import FfiBindings.Text.AsciiQuoted

/-!
Listings of exported functions: one line for each, or all of them as one JSON document.
-/

set_option autoImplicit false
set_option relaxedAutoImplicit false

namespace FfiBindings.CommandLine.Listing

open Rust (ExportedFunction Parameter)

def parameterText (parameter : Parameter) : String :=
  if parameter.name.isEmpty then parameter.type else s!"{parameter.name}: {parameter.type}"

def line (function : ExportedFunction) : String :=
  let parameters := ", ".intercalate (function.parameters.map parameterText)
  s!"{function.name}({parameters}) -> {function.returnType}\n"

def lines (functions : List ExportedFunction) : String :=
  String.join (functions.map line)

def indent (depth : Nat) : String :=
  .ofList ('\n' :: List.replicate (2 * depth) ' ')

/-- Members between brackets, each on a line of its own; without members there is only the one line. -/
def block (left right : String) (depth : Nat) (members : List String) : String :=
  if members.isEmpty then left ++ right
  else
    left ++ ",".intercalate (members.map (indent (depth + 1) ++ ·)) ++ indent depth ++ right

def field (name value : String) : String :=
  Text.asciiQuoted name ++ ": " ++ value

def parameterJson (parameter : Parameter) : String :=
  block "\x7b" "\x7d" 3
    [field "type" (Text.asciiQuoted parameter.type), field "name" (Text.asciiQuoted parameter.name)]

def functionJson (function : ExportedFunction) : String :=
  block "\x7b" "\x7d" 1
    [field "name" (Text.asciiQuoted function.name),
      field "params" (block "[" "]" 2 (function.parameters.map parameterJson)),
      field "return_type" (Text.asciiQuoted function.returnType),
      field "line" (toString function.line)]

def json (functions : List ExportedFunction) : String :=
  block "[" "]" 0 (functions.map functionJson) ++ "\n"

end FfiBindings.CommandLine.Listing
