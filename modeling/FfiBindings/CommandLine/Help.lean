import FfiBindings.CommandLine.Invocation

/-!
The texts that tell how the program is called, laid out for eighty columns.
-/

set_option autoImplicit false
set_option relaxedAutoImplicit false

namespace FfiBindings.CommandLine

def linesText (lines : List String) : String :=
  String.join (lines.map (· ++ "\n"))

namespace Scope

def usage : Scope → String
  | .program => linesText ["usage: bunbind [-h] [-v] \x7bgenerate,inspect\x7d ..."]
  | .command .generate => linesText
    ["usage: bunbind generate [-h] [-v] [--platform PLATFORM] [--workers WORKERS]",
      "                        [--dry-run] [--strict] [--log-file LOG_FILE]",
      "                        [path]"]
  | .command .inspect => linesText ["usage: bunbind inspect [-h] [-v] [--json] file"]

/-- What help says after the usage. -/
def description : Scope → String
  | .program => linesText
    ["Generate bun:ffi TypeScript bindings from exported Rust functions.",
      "",
      "positional arguments:",
      "  \x7bgenerate,inspect\x7d",
      "    generate          Generate bindings for every Rust module and update",
      "                      index.ts.",
      "    inspect           Print the exported signatures found in one source file.",
      "",
      "options:",
      "  -h, --help          show this help message and exit",
      "  -v, --verbose       Increase log verbosity for troubleshooting."]
  | .command .generate => linesText
    ["positional arguments:",
      "  path                 Path to the library root containing rs/ (defaults to",
      "                       current directory).",
      "",
      "options:",
      "  -h, --help           show this help message and exit",
      "  -v, --verbose        Increase log verbosity for troubleshooting.",
      "  --platform PLATFORM  Target platform for library naming (win32, linux,",
      "                       darwin). Defaults to the host.",
      "  --workers WORKERS    Number of modules processed in parallel (overrides",
      "                       .bunbind.yml).",
      "  --dry-run            Report what would be written without touching disk.",
      "  --strict             Exit non-zero when any module fails to generate.",
      "  --log-file LOG_FILE  Also write logs to this file."]
  | .command .inspect => linesText
    ["positional arguments:",
      "  file           Rust source file to inspect.",
      "",
      "options:",
      "  -h, --help     show this help message and exit",
      "  -v, --verbose  Increase log verbosity for troubleshooting.",
      "  --json         Emit signatures as JSON."]

def help (scope : Scope) : String :=
  scope.usage ++ "\n" ++ scope.description

/-- How an error in the scope is reported. -/
def errorText (scope : Scope) (error : UsageError) : String :=
  scope.usage ++ s!"{scope.title}: error: {error.message}\n"

end Scope

end FfiBindings.CommandLine
