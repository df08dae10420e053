import Outlet.Config
import Outlet.IoError

/-!
# What a call answers

A call answers with the number of bytes written or with an error. `CallResult.code` collapses the
answer into one signed number: the count, cut off at the greatest number that fits, or `-1`. The
error is then lost to the caller, so `CallResult.trace` says what it was.
-/

namespace Outlet

inductive CallError where
  /-- The sink did not take all the bytes. -/
  | write (kind : IoError.Kind) (message : String)
  /-- The sink took all the bytes and could not deliver them. -/
  | flush (kind : IoError.Kind) (message : String)
  /-- A null pointer came with a length other than zero. -/
  | nullMessage (length : Nat)
  deriving DecidableEq

namespace CallError

def ofWrite (error : IoError) : CallError := .write error.kind error.message

def ofFlush (error : IoError) : CallError := .flush error.kind error.message

/-- The code of the errors of a sink. -/
def ioCode : Int := 1

/-- The code of the errors of a caller. -/
def argumentCode : Int := 4

def code : CallError → Int
  | write _ _ | flush _ _ => ioCode
  | nullMessage _ => argumentCode

/-- The kind of the sink's error, if it was the sink's. -/
def kind? : CallError → Option IoError.Kind
  | write kind _ | flush kind _ => some kind
  | nullMessage _ => none

def message : CallError → String
  | write _ message => "write to sink failed: " ++ message
  | flush _ message => "flush of sink failed: " ++ message
  | nullMessage length => "null message pointer with length " ++ toString length

end CallError

inductive CallResult where
  | wrote (count : Nat)
  | failed (error : CallError)
  deriving DecidableEq

namespace CallResult

def failureCode : Int := -1

def greatestCode : Nat := 2147483647

/-- The answer as one number: a count that is too large saturates. -/
def code : CallResult → Int
  | wrote count => min count greatestCode
  | failed _ => failureCode

/-- What is traced of a call under its name when its answer is collapsed into a code. -/
def trace (config : Config) (name : String) : CallResult → String
  | wrote _ => ""
  | failed error =>
    config.trace (name ++ " failed: " ++ error.message ++ " (code " ++ toString error.code ++ ")")

/-- The code says whether the call failed, and no other code is negative. -/
theorem code_neg_iff (result : CallResult) : result.code < 0 ↔ result.code = failureCode := by
  cases result with
  | wrote count =>
    simp only [code, failureCode]
    omega
  | failed error => simp [code, failureCode]

theorem code_eq_failureCode_iff (result : CallResult) :
    result.code = failureCode ↔ ∃ error, result = .failed error := by
  cases result with
  | wrote count =>
    simp only [code, failureCode, reduceCtorEq, exists_false, iff_false]
    omega
  | failed error => simp [code]

end CallResult

/-- Whether a call answers with a code, and traces its error, or with its result. -/
inductive Form where
  | coded
  | typed
  deriving DecidableEq

inductive Reply where
  | code (code : Int)
  | result (result : CallResult)
  deriving DecidableEq

def Form.reply (form : Form) (result : CallResult) : Reply :=
  match form with
  | .coded => .code result.code
  | .typed => .result result

def Form.trace (form : Form) (config : Config) (name : String) (result : CallResult) : String :=
  match form with
  | .coded => result.trace config name
  | .typed => ""

end Outlet
