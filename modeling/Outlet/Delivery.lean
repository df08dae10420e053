import Outlet.CallResult
import Outlet.Message
import Outlet.Sink

/-!
# Delivering a message

A delivery offers a sink what is left of a message until nothing is left or the sink fails, and
then flushes it, whatever came before. An answer "interrupted" is no failure: the same offer is
made again. A sink that reports more bytes than are left overruns the message, and the delivery
is broken off without a flush.

The loop ends because each turn either uses up bytes of the message or patience of the sink. Where
an interruption does neither, the sink is as it was and the delivery would never end; it is then
given up as stalled. Main statement: on a reliable sink every call has a result.
-/

namespace Outlet

/-- One write, as the sink saw it. -/
structure WriteCall where
  offer : Parts
  answer : WriteAnswer
  deriving DecidableEq

inductive WriteEnd where
  | complete
  | failed (error : IoError)
  | overrun
  | stalled
  deriving DecidableEq

structure Written (σ : Type) where
  calls : List WriteCall
  ending : WriteEnd
  sink : σ

def Written.after {σ : Type} (call : WriteCall) (written : Written σ) : Written σ :=
  { written with calls := call :: written.calls }

variable {σ : Type} [Sink σ]

/-- Writes the parts, of which the first is not empty. -/
def writeAll (sink : σ) (parts : Parts) : Written σ :=
  if parts = [] then ⟨[], .complete, sink⟩
  else
    let call : WriteCall := ⟨Sink.visible sink parts, (Sink.write sink parts).1⟩
    let next := (Sink.write sink parts).2
    match (Sink.write sink parts).1 with
    | .accepted 0 => ⟨[call], .failed (.plain .writeZero), next⟩
    | .accepted (count + 1) =>
      match _hr : parts.advance? (count + 1) with
      | none => ⟨[call], .overrun, next⟩
      | some rest => (writeAll next rest).after call
    | .failed error =>
      if error.kind = .interrupted then
        if _hp : Sink.patience next < Sink.patience sink then (writeAll next parts).after call
        else ⟨[call], .stalled, next⟩
      else ⟨[call], .failed error, next⟩
termination_by (parts.size, Sink.patience sink)
decreasing_by
  · have hsize := Parts.size_advance? _hr
    have hle : ¬ parts.size < count + 1 := by
      rw [← Parts.advance?_eq_none_iff, _hr]
      simp
    exact Prod.Lex.left _ _ (by omega)
  · exact Prod.Lex.right _ _hp

/-- How a call ended: with a result, or broken off. -/
inductive Outcome where
  | returned (result : CallResult)
  | overrun
  | stalled
  deriving DecidableEq

/-- A delivery, as the sink saw it: its writes, then its flush. -/
structure Delivery (σ : Type) where
  calls : List WriteCall
  flush : Option FlushAnswer
  outcome : Outcome
  sink : σ

/-- The result of a call whose writes and flush ended so. An error of a write wins. -/
def CallResult.ofEnds (size : Nat) : Option IoError → FlushAnswer → CallResult
  | some error, _ => .failed (.ofWrite error)
  | none, .failed error => .failed (.ofFlush error)
  | none, .done => .wrote size

/-- Writes a text given in parts and flushes the sink. -/
def deliverParts (sink : σ) (parts : Parts) : Delivery σ :=
  let written := writeAll sink parts.dropEmpty
  let flush := Sink.flush written.sink
  match written.ending with
  | .overrun => ⟨written.calls, none, .overrun, written.sink⟩
  | .stalled => ⟨written.calls, none, .stalled, written.sink⟩
  | .failed error =>
    ⟨written.calls, some flush.1, .returned (.ofEnds parts.size (some error) flush.1), flush.2⟩
  | .complete =>
    ⟨written.calls, some flush.1, .returned (.ofEnds parts.size none flush.1), flush.2⟩

def deliver (sink : σ) (message : Message) : Delivery σ :=
  deliverParts sink message.parts

/-! ## Reliable sinks -/

theorem writeAll_ending_of_reliable [ReliableSink σ] (sink : σ) (parts : Parts) :
    (writeAll sink parts).ending = .complete ∨
      ∃ error, (writeAll sink parts).ending = .failed error := by
  fun_induction writeAll sink parts with
  | case1 => exact .inl rfl
  | case2 => exact .inr ⟨_, rfl⟩
  | case3 sink parts _ _ _ count ha hr =>
    have := ReliableSink.accepted_le sink parts _ ha
    rw [Parts.advance?_eq_none_iff] at hr
    omega
  | case4 _ _ _ _ _ _ _ _ _ ih => exact ih
  | case5 _ _ _ _ _ _ _ _ _ ih => exact ih
  | case6 sink parts _ _ _ error ha hi hp =>
    exact absurd (ReliableSink.patience_lt sink parts error ha hi) hp
  | case7 => exact .inr ⟨_, rfl⟩

theorem exists_deliver_outcome [ReliableSink σ] (sink : σ) (message : Message) :
    ∃ result, (deliver sink message).outcome = .returned result := by
  rw [deliver, deliverParts]
  rcases writeAll_ending_of_reliable sink message.parts.dropEmpty with h | ⟨error, h⟩ <;>
    simp [h]

def Outcome.result? : Outcome → Option CallResult
  | .returned result => some result
  | .overrun | .stalled => none

theorem isSome_deliver_result? [ReliableSink σ] (sink : σ) (message : Message) :
    (deliver sink message).outcome.result?.isSome := by
  obtain ⟨result, h⟩ := exists_deliver_outcome sink message
  rw [h]
  rfl

def send [ReliableSink σ] (sink : σ) (message : Message) : CallResult × σ :=
  let delivery := deliver sink message
  (delivery.outcome.result?.get (isSome_deliver_result? sink message), delivery.sink)

/-- Fails a call before anything is written. The sink is flushed all the same, and how that ends
makes no difference to a call that has failed. -/
def reject (sink : σ) (error : CallError) : CallResult × σ :=
  (.failed error, (Sink.flush sink).2)

end Outlet
