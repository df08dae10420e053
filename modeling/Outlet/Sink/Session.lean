import Outlet.Delivery
import Outlet.Session
import Outlet.Sink.Scripted

/-!
# Sessions on a scripted sink

A session is a run of steps on one sink: calls, which answer with a code or with their result, and
bytes put into the sink past all calls. Each step reports what it answered, what the sink saw, and
what became of the bytes.
-/

namespace Outlet

namespace ScriptedSink

inductive Step where
  | call (form : Form) (message : Message)
  /-- Puts bytes into the sink that no call has written. -/
  | poke (bytes : Bytes)
  deriving DecidableEq

inductive Answer where
  | reply (reply : Reply)
  | overrun
  | stalled
  | poked
  deriving DecidableEq

structure Report where
  answer : Answer
  calls : List WriteCall
  flush : Option FlushAnswer
  /-- What the step moved out. -/
  delivered : Bytes
  /-- What is pending after the step. -/
  pending : Bytes
  trace : String
  deriving DecidableEq

def step (config : Config) (sink : ScriptedSink) : Step → Report × ScriptedSink
  | .poke bytes =>
    let next := sink.append bytes
    (⟨.poked, [], none, [], next.pending, ""⟩, next)
  | .call form message =>
    let delivery := deliver sink message
    let next := delivery.sink
    let delivered := next.out.drop sink.out.length
    let report := fun answer trace =>
      Report.mk answer delivery.calls delivery.flush delivered next.pending trace
    match delivery.outcome with
    | .returned result =>
      (report (.reply (form.reply result)) (form.trace config message.callName result), next)
    | .overrun => (report .overrun "", next)
    | .stalled => (report .stalled "", next)

def run (config : Config) (sink : ScriptedSink) (steps : List Step) :
    List Report × ScriptedSink :=
  Session.run (step config) sink steps

end ScriptedSink

end Outlet
