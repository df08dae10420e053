import Outlet.CommandLine.Usage
import Outlet.Utf8

/-!
# The arguments of a command line

What an argument is by itself, before anything is known of the ones around it. It is an option if
it begins with a hyphen and does not end there. Of a cluster of short options only the first
counts, because none of them can be followed by another.
-/

namespace Outlet.CommandLine

inductive Token where
  /-- From here on no argument is an option. -/
  | escape
  | flag (flag : Flag)
  | help
  | version
  /-- The option with a value, and the value if it is part of the argument. -/
  | pause (value : Option Bytes)
  /-- An option without a value that has been given one. -/
  | valued (option value : String)
  | unknown (shown : String)
  | plain
  deriving DecidableEq

namespace Token

def hyphen : UInt8 := 45

def equalsSign : UInt8 := 61

/-- An option without a value, unless the argument holds one. -/
def withoutValue (name : String) (token : Token) : Option Bytes → Token
  | none => token
  | some value => valued ("--" ++ name) (Utf8.decodeLossy value)

def ofLong (name : Bytes) (value : Option Bytes) : Token :=
  match Utf8.decode? name with
  | some "codes" => withoutValue "codes" (flag .codes) value
  | some "close-stdout" => withoutValue "close-stdout" (flag .closeStdout) value
  | some "fail-on-error" => withoutValue "fail-on-error" (flag .failOnError) value
  | some "help" => withoutValue "help" help value
  | some "version" => withoutValue "version" version value
  | some "pause-ms" => pause value
  | _ => unknown ("--" ++ Utf8.decodeLossy name)

/-- The option with the first of some short names. -/
def ofShort (names : Bytes) : Token :=
  match Utf8.scan none names with
  | some 'h' :: _ => help
  | some 'V' :: _ => version
  | some c :: _ => unknown (String.ofList ['-', c])
  | _ => unknown ("-" ++ Utf8.decodeLossy names)

/-- The value in a long option, which stands after the first equals sign. -/
def value? (long : Bytes) : Option Bytes :=
  match long.dropWhile (· ≠ equalsSign) with
  | [] => none
  | _ :: value => some value

def ofArgument (argument : Bytes) : Token :=
  match argument with
  | [] => plain
  | first :: rest =>
    if first ≠ hyphen then plain
    else match rest with
      | [] => plain
      | second :: long =>
        if second ≠ hyphen then ofShort rest
        else if long = [] then escape
        else ofLong (long.takeWhile (· ≠ equalsSign)) (value? long)

end Token

end Outlet.CommandLine
