import Outlet.Decimal.Numeral
import Outlet.Terminal

/-!
# What the command line takes

The options of the command, what it says of itself, and why it refuses a command line. An error is
told in one line; a name or value is shown in it without terminal control, and one that breaks the
line cuts it off there.
-/

namespace Outlet.CommandLine

inductive Flag where
  | codes
  | closeStdout
  | failOnError
  deriving DecidableEq

namespace Flag

def name : Flag → String
  | codes => "codes"
  | closeStdout => "close-stdout"
  | failOnError => "fail-on-error"

end Flag

structure Options where
  calls : List String
  /-- Whether the codes of the calls are to be shown. -/
  codes : Bool
  /-- How many milliseconds to wait before each call. -/
  pause : Nat
  /-- Whether the script is to find standard output closed. -/
  closeStdout : Bool
  /-- Whether a call that failed is to fail the command. -/
  failOnError : Bool
  deriving DecidableEq

inductive UsageError where
  | unknownArgument (argument : String)
  | unexpectedValue (option value : String)
  | repeated (option : String)
  | missingValue
  | invalidValue (value : String) (cause : Decimal.Numeral.Error)
  | invalidUtf8
  | missingCalls
  deriving DecidableEq

/-- How the option with a value is shown. -/
def pauseUsage : String := "--pause-ms <PAUSE_MS>"

namespace UsageError

/-- The error in words, with its names and values as they are shown. -/
def text (shown : String → String) : UsageError → String
  | unknownArgument argument => "unexpected argument '" ++ shown argument ++ "' found"
  | unexpectedValue option value =>
    "unexpected value '" ++ shown value ++ "' for '" ++ option ++ "' found; no more were expected"
  | repeated option => "the argument '" ++ option ++ "' cannot be used multiple times"
  | missingValue => "a value is required for '" ++ pauseUsage ++ "' but none was supplied"
  | invalidValue value cause =>
    "invalid value '" ++ shown value ++ "' for '" ++ pauseUsage ++ "': " ++ cause.message
  | invalidUtf8 => "invalid UTF-8 was detected in one or more arguments"
  | missingCalls => "the following required arguments were not provided:"

/-- What stands before the first end of a line, with or without a carriage return. -/
def firstLine : List Char → List Char
  | [] => []
  | '\n' :: _ => []
  | '\r' :: '\n' :: _ => []
  | c :: rest => c :: firstLine rest

/-- The error in one line. -/
def message (way : Terminal.Way) (error : UsageError) : String :=
  String.ofList (firstLine ("error: " ++ error.text (Terminal.plain way)).toList)

end UsageError

/-- Why a command line leads to no run of a script. -/
inductive Stop where
  | help
  | version
  | refused (error : UsageError)
  deriving DecidableEq

def helpText : String :=
  String.intercalate "\n" [
    "Replay output calls through the stlib C ABI",
    "",
    "Usage: stlib_probe [OPTIONS] <CALLS>...",
    "",
    "Arguments:",
    "  <CALLS>...  Calls to make, in order: str:<text>, line:<text>, int:<n>, and the " ++
      "NUL-terminated compatibility forms cstr:<text>, cline:<text>, cint:<n>",
    "",
    "Options:",
    "      --codes                Print each call's result code to stderr after the run",
    "      --pause-ms <PAUSE_MS>  Sleep this many milliseconds before each call [default: 0]",
    "      --close-stdout         Close the stdout descriptor before the first call (unix only)",
    "      --fail-on-error        " ++
      "Exit with status 1 if any call returned a negative result code",
    "  -h, --help                 Print help",
    "  -V, --version              Print version",
    ""]

def versionText : String := "stlib_probe 0.1.0\n"

end Outlet.CommandLine
