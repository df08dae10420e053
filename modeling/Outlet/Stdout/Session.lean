import Outlet.Session
import Outlet.Stdout.Entry

/-!
# Sessions on standard output

A session is a run of steps on standard output: calls of entry points, calls like those on any
sink, direct writes and flushes, and texts printed past them all. Where the descriptor leads may
change between two steps.
-/

namespace Outlet

namespace Entry

/-- What a call of an entry point answered, and what became of it. -/
structure Report where
  code : Int
  /-- What the call added to the file. -/
  out : Bytes
  trace : String
  deriving DecidableEq

def invoke (config : Config) (stdout : Stdout) (entry : Entry) : Report × Stdout :=
  let (result, next) := entry.run stdout
  (⟨result.code, next.descriptor.file.drop stdout.descriptor.file.length,
    result.trace config entry.name⟩, next)

end Entry

namespace Stdout

inductive Step where
  | retarget (target : Target)
  | entry (entry : Entry)
  | call (form : Form) (message : Message)
  | write (parts : Parts)
  | flush
  | print (text : Bytes)
  deriving DecidableEq

inductive Answer where
  | retargeted (target : Target)
  | reply (reply : Reply)
  | written (answer : WriteAnswer)
  | flushed (answer : FlushAnswer)
  | printed (answer : FlushAnswer)
  deriving DecidableEq

structure Report where
  answer : Answer
  /-- What the step added to the file. -/
  out : Bytes
  trace : String
  deriving DecidableEq

def retarget (stdout : Stdout) (target : Target) : Stdout :=
  { stdout with descriptor.target := target }

def perform (config : Config) (stdout : Stdout) : Step → Answer × String × Stdout
  | .retarget target => (.retargeted target, "", stdout.retarget target)
  | .entry entry =>
    let (report, next) := entry.invoke config stdout
    (.reply (.code report.code), report.trace, next)
  | .call form message =>
    let (result, next) := send stdout message
    (.reply (form.reply result), form.trace config message.callName result, next)
  | .write parts =>
    let (answer, next) := stdout.write parts
    (.written answer, "", next)
  | .flush =>
    let (answer, next) := stdout.drain
    (.flushed answer, "", next)
  | .print text =>
    let (answer, next) := stdout.print text
    (.printed answer, "", next)

def step (config : Config) (stdout : Stdout) (step : Step) : Report × Stdout :=
  let (answer, trace, next) := stdout.perform config step
  (⟨answer, next.descriptor.file.drop stdout.descriptor.file.length, trace⟩, next)

def run (config : Config) (stdout : Stdout) (steps : List Step) : List Report × Stdout :=
  Session.run (step config) stdout steps

end Stdout

end Outlet
