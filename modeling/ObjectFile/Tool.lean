import ObjectFile.Tool.Arguments
import ObjectFile.Tool.LogFilter
/-!
# The tool

What the command leaves to others, in the form in which the tool is built.  What is said of
the command is said for all libraries (`Command.Libraries`), and no statement is about these.

The tool takes the arguments that `Tool.parse` reads, patterns as `Pattern.parse` reads them,
and a setting of the log as `LogFilter.parse` reads it.  A setting that cannot be read is
passed over.
-/

namespace ObjectFile.Tool

open Command (Options Outcome)

/-- The name and the version of the command. -/
def versionText : String := "readgoobj 0.1.0\n"

/-- How the command is used. -/
def helpText : String :=
  "Print the symbols defined in a go object file\n\n" ++
  "Usage: readgoobj [OPTIONS] <FILE>\n\n" ++
  "Arguments:\n" ++
  "  <FILE>  Go object file to read\n\n" ++
  "Options:\n" ++
  "  -r, --relocs           Also list every relocation\n" ++
  "  -f, --filter <FILTER>  Only show symbols whose name matches this regular expression\n" ++
  "  -j, --json             Emit JSON instead of text tables\n" ++
  "  -d, --debug            Enable debug output\n" ++
  "  -h, --help             Print help\n" ++
  "  -V, --version          Print version\n"

/-- The complaint about arguments that ask for nothing. -/
def usage (misuse : Misuse) : String :=
  "error: " ++ misuse.message ++ "\n\nUsage: readgoobj [OPTIONS] <FILE>\n\n" ++
    "For more information, try '--help'.\n"

/-- What the arguments ask the command to display, or what a run comes to that displays
nothing. -/
def options (args : List String) : Except Outcome Options :=
  match parse args with
  | .error misuse => .error ⟨2, "", usage misuse⟩
  | .ok .help => .error ⟨0, helpText, ""⟩
  | .ok .version => .error ⟨0, versionText, ""⟩
  | .ok (.display options) => .ok options

/-- The filter of the log: that of the setting or, without one that can be read, the default. -/
def logFilter (default : String) (setting : Option String) : LogFilter :=
  ((setting.bind LogFilter.parse).or (LogFilter.parse default)).getD { rules := [] }

/-- The names in which a pattern occurs. -/
def compile (text : String) : Except String (String → Bool) :=
  match Pattern.parse text with
  | none => .error "the pattern cannot be read"
  | some pattern => .ok pattern.occursIn

/-- The libraries of the tool. -/
def libraries : Command.Libraries where
  options := options
  startLog default setting := .ok (logFilter default setting).shows
  compile := compile
  collapse := "the run broke off: a cell of a table needs too many blanks\n"

end ObjectFile.Tool
