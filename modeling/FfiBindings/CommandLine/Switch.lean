import FfiBindings.Text.Numeral

/-!
The commands of the program, the switches of each, and what can be wrong with a command line.
-/

set_option autoImplicit false
set_option relaxedAutoImplicit false

namespace FfiBindings.CommandLine

inductive Switch where
  | help
  | verbose
  | platform
  | workers
  | dryRun
  | strict
  | logFile
  | json
  deriving DecidableEq, Repr

namespace Switch

def spellings : Switch → List String
  | .help => ["-h", "--help"]
  | .verbose => ["-v", "--verbose"]
  | .platform => ["--platform"]
  | .workers => ["--workers"]
  | .dryRun => ["--dry-run"]
  | .strict => ["--strict"]
  | .logFile => ["--log-file"]
  | .json => ["--json"]

def takesValue : Switch → Bool
  | .platform | .workers | .logFile => true
  | _ => false

def name (switch : Switch) : String :=
  "/".intercalate switch.spellings

end Switch

inductive Command where
  | generate
  | inspect
  deriving DecidableEq, Repr

namespace Command

def all : List Command := [.generate, .inspect]

def name : Command → String
  | .generate => "generate"
  | .inspect => "inspect"

def ofName? (text : String) : Option Command :=
  all.find? (·.name == text)

end Command

/-- How many operands are taken. -/
inductive Arity where
  | atMostOne
  | one
  /-- The first operand and all words after it, switches included. -/
  | rest
  deriving DecidableEq, Repr

/-- Words before the name of a command belong to the program, those after it to the command. -/
inductive Scope where
  | program
  | command (command : Command)
  deriving DecidableEq, Repr

namespace Scope

def title : Scope → String
  | .program => "bunbind"
  | .command inner => "bunbind " ++ inner.name

def switches : Scope → List Switch
  | .program => [.help, .verbose]
  | .command .generate =>
    [.help, .verbose, .platform, .workers, .dryRun, .strict, .logFile]
  | .command .inspect => [.help, .verbose, .json]

def arity : Scope → Arity
  | .program => .rest
  | .command .generate => .atMostOne
  | .command .inspect => .one

/-- What its operand is called. -/
def operandName : Scope → String
  | .program => "command"
  | .command .generate => "path"
  | .command .inspect => "file"

/-- Every spelling of a switch with the switch. -/
def spellings (scope : Scope) : List (String × Switch) :=
  scope.switches.flatMap fun switch => switch.spellings.map fun spelling => (spelling, switch)

end Scope

inductive UsageError where
  | ambiguous (word : String) (spellings : List String)
  /-- A switch that takes no value is given one. -/
  | ignoredValue (switch : Switch) (value : String)
  | missingValue (switch : Switch)
  | noInteger (switch : Switch) (value : String)
  | notPositive (switch : Switch)
  | noCommand (name : String)
  | missingOperand (name : String)
  | unrecognized (words : List String)
  deriving DecidableEq, Repr

def UsageError.message : UsageError → String
  | .ambiguous word spellings =>
    s!"ambiguous option: {word} could match " ++ ", ".intercalate spellings
  | .ignoredValue switch value =>
    s!"argument {switch.name}: ignored explicit argument {Text.quoted value}"
  | .missingValue switch => s!"argument {switch.name}: expected one argument"
  | .noInteger switch value =>
    s!"argument {switch.name}: expected an integer, got {Text.quoted value}"
  | .notPositive switch => s!"argument {switch.name}: must be at least 1"
  | .noCommand name =>
    s!"argument command: invalid choice: {Text.quoted name} (choose from " ++
      ", ".intercalate (Command.all.map fun command => Text.quoted command.name) ++ ")"
  | .missingOperand name => s!"the following arguments are required: {name}"
  | .unrecognized words => "unrecognized arguments: " ++ " ".intercalate words

end FfiBindings.CommandLine
