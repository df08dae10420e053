import Outlet.IoError.System

/-!
# Input and output errors

An error has a kind and a text. It arises inside the program with one of the kinds, with the
standard text of the kind or one of its own, or it comes from the system with a number, which then
decides both.
-/

namespace Outlet

inductive IoError where
  | plain (kind : IoError.Kind)
  /-- An error with a text of its own. -/
  | worded (kind : IoError.Kind) (text : String)
  | system (number : Int)
  deriving DecidableEq

namespace IoError

def kind : IoError → Kind
  | plain kind => kind
  | worded kind _ => kind
  | system number => (System.lookup number).1

/-- The text of an error; a system error's number follows its text. -/
def message : IoError → String
  | plain kind => kind.text
  | worded _ text => text
  | system number => (System.lookup number).2 ++ " (os error " ++ toString number ++ ")"

end IoError

end Outlet
