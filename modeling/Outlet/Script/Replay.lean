import Outlet.Script.Call
import Outlet.Stdout.Session

/-!
# Replaying scripts

The calls of a script are made in order on one standard output, each whatever the ones before it
answered.
-/

namespace Outlet.Script

def replay (config : Config) (stdout : Stdout) (calls : List Call) :
    List Entry.Report × Stdout :=
  Session.run (fun stdout call => call.entry.invoke config stdout) stdout calls

end Outlet.Script
