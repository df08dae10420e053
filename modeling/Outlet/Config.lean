import Outlet.Blank
import Outlet.Utf8

/-!
# Configuration

Output has no settings. The one switch is for tracing, read from the environment: a value that is
empty or `0` between blanks leaves it off, and so does one that is not UTF-8.
-/

namespace Outlet

structure Config where
  log : Bool := false
  deriving DecidableEq

namespace Config

def settingName : String := "STLIB_RUNTIME_LOG"

/-- The configuration under a setting, or under none. -/
def ofSetting (setting : Option Bytes) : Config :=
  match setting.bind Utf8.decode? with
  | none => ⟨false⟩
  | some text =>
    let core := trimBlanks text.toList
    ⟨core ≠ [] && core ≠ ['0']⟩

/-! ## Trace lines -/

/-- What every trace line begins with. -/
def tag : String := "[stlib runtime]"

/-- The trace of a text: one line, or nothing where tracing is off. -/
def trace (config : Config) (text : String) : String :=
  if config.log then tag ++ " " ++ text ++ "\n" else ""

end Config

end Outlet
