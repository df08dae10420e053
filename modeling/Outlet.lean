import Outlet.Decimal.Lemmas
import Outlet.Utf8.Lemmas
import Outlet.Sink.Session
import Outlet.Main
import Outlet.Proofs.ExactlyOnce
import Outlet.Proofs.RawWrite
import Outlet.Proofs.Drain
import Outlet.Proofs.Calls
import Outlet.Proofs.FileRoom
import Outlet.Proofs.ProgramOrder
import Outlet.Proofs.Ledger
import Outlet.Proofs.Faults
import Outlet.Proofs.SideBySide
import Outlet.Proofs.Interruptions
import Outlet.Proofs.Slicing
import Outlet.Proofs.Scripts
import Outlet.Proofs.Families
import Outlet.Proofs.ProbeRun
import Outlet.Proofs.RefusedScripts
import Outlet.Proofs.DeliveryShape
import Outlet.Proofs.Overruns
import Outlet.Proofs.Lines
import Outlet.Proofs.Spelling
import Outlet.Proofs.Rendering
import Outlet.Proofs.Numerals
import Outlet.Proofs.Grammar
import Outlet.Proofs.Causes
import Outlet.Proofs.NormalForm
import Outlet.Proofs.DrainFirst
import Outlet.Proofs.NullPointers
import Outlet.Proofs.Termination
import Outlet.Proofs.Tracing
import Outlet.Proofs.FieldReuse
import Outlet.Proofs.Switch
import Outlet.Proofs.Arrangements
import Outlet.Script.Replay
import Outlet.Proofs.Replays
