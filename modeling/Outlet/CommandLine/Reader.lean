import Outlet.CommandLine.Token

/-!
# Reading command lines

Arguments are read from left to right. What is no option stays pending, as calls or as the value
of the option before it, and is looked at only when something ends it: a known option, a call
after a complete value, or the end of the line. An unknown option, or a value that is out of
place, is therefore refused before a fault in what is pending.
-/

namespace Outlet.CommandLine

/-- Arguments that have been read and not been looked at. -/
inductive Pending where
  | nothing
  | calls (arguments : List Bytes)
  /-- The option with a value, and its value if it has been read. -/
  | pause (value : Option Bytes)
  deriving DecidableEq

structure State where
  calls : List String
  flags : List Flag
  pause : Option Nat
  pending : Pending
  /-- Whether the options have ended. -/
  escaped : Bool
  deriving DecidableEq

namespace State

def start : State := ⟨[], [], none, .nothing, false⟩

/-- Sets the pause. A second one is refused whatever its value. -/
def setPause (state : State) (value : Bytes) : Except UsageError State :=
  if state.pause.isSome then .error (.repeated pauseUsage)
  else match Utf8.decode? value with
    | none => .error .invalidUtf8
    | some text =>
      match Decimal.Numeral.read .unsigned64 value with
      | .error cause => .error (.invalidValue text cause)
      | .ok pause => .ok { state with pause := some pause.toNat, pending := .nothing }

def settle (state : State) : Except UsageError State :=
  match state.pending with
  | .nothing => .ok state
  | .calls arguments =>
    match arguments.mapM Utf8.decode? with
    | none => .error .invalidUtf8
    | some calls => .ok { state with calls := state.calls ++ calls, pending := .nothing }
  | .pause none => .error .missingValue
  | .pause (some value) => state.setPause value

/-- Reads an argument as a call. -/
def addCall (state : State) (argument : Bytes) : Except UsageError State :=
  match state.pending with
  | .calls arguments => .ok { state with pending := .calls (arguments ++ [argument]) }
  | _ => state.settle.map fun state => { state with pending := .calls [argument] }

/-- Reads an argument that is no option. -/
def addPlain (state : State) (argument : Bytes) : Except UsageError State :=
  match state.pending with
  | .pause none => .ok { state with pending := .pause (some argument) }
  | _ => state.addCall argument

/-- Sets a flag. A second one is refused. -/
def setFlag (state : State) (flag : Flag) : Except UsageError State :=
  if flag ∈ state.flags then .error (.repeated ("--" ++ flag.name))
  else .ok { state with flags := flag :: state.flags }

def step (state : State) (argument : Bytes) : Except Stop State :=
  if state.escaped then (state.addCall argument).mapError .refused
  else match Token.ofArgument argument with
    | .escape => .ok { state with escaped := true }
    | .unknown shown => .error (.refused (.unknownArgument shown))
    | .valued option value => .error (.refused (.unexpectedValue option value))
    | .flag flag => (state.settle.bind (·.setFlag flag)).mapError .refused
    | .help => (state.settle.mapError .refused).bind fun _ => .error .help
    | .version => (state.settle.mapError .refused).bind fun _ => .error .version
    | .pause (some value) => (state.settle.bind (·.setPause value)).mapError .refused
    | .pause none =>
      (state.settle.map fun state => { state with pending := .pause none }).mapError .refused
    | .plain => (state.addPlain argument).mapError .refused

def finish (state : State) : Except UsageError Options :=
  state.settle.bind fun state =>
    if state.calls = [] then .error .missingCalls
    else .ok {
      calls := state.calls
      codes := .codes ∈ state.flags
      pause := state.pause.getD 0
      closeStdout := .closeStdout ∈ state.flags
      failOnError := .failOnError ∈ state.flags }

end State

def read (arguments : List Bytes) : Except Stop Options :=
  (arguments.foldlM State.step .start).bind fun state => state.finish.mapError .refused

end Outlet.CommandLine
