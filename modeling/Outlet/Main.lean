import Outlet.Probe

/-!
# The command

Starts the probe with the arguments and the environment of the process, and lets what is seen of
its run happen.
-/

namespace Outlet

/-- Waits, in turns that fit the system's clock. -/
def wait (milliseconds : Nat) : IO Unit := do
  for _ in 0...milliseconds / 1000 do
    IO.sleep 1000
  IO.sleep (milliseconds % 1000).toUInt32

/-- Lets an event be seen. Behind the end of standard output there is nothing left to show on it. -/
def Probe.Event.happen : Probe.Event → IO Unit
  | .close => pure ()
  | .wait milliseconds => Outlet.wait milliseconds
  | .stdout bytes => do
    let stdout ← IO.getStdout
    stdout.write ⟨bytes.toArray⟩
    stdout.flush
  | .stderr text => IO.eprint text

end Outlet

open Outlet

def main (arguments : List String) : IO UInt32 := do
  let setting ← IO.getEnv Config.settingName
  let run := Probe.Invocation.run
    ⟨arguments.map Utf8.encode, setting.map Utf8.encode, Probe.Stream.pipe, .pipe⟩
  run.events.forM Probe.Event.happen
  return run.status.toUInt32
