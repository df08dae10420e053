import Outlet.Bytes
import Outlet.IoError

/-!
# Sinks

A sink takes bytes and is flushed. It may take fewer bytes than it is offered, or fail, and it
need not tell the truth about how many it took. An answer "interrupted" either uses up some of its
patience or leaves the sink as it was, so that it gives the same answer for ever.
-/

namespace Outlet

inductive WriteAnswer where
  | accepted (count : Nat)
  | failed (error : IoError)
  deriving DecidableEq

inductive FlushAnswer where
  | done
  | failed (error : IoError)
  deriving DecidableEq

class Sink (σ : Type) where
  /-- The parts of an offer that reach the sink. -/
  visible : σ → Parts → Parts
  write : σ → Parts → WriteAnswer × σ
  flush : σ → FlushAnswer × σ
  patience : σ → Nat
  patience_lt_or_eq : ∀ sink parts error, (write sink parts).1 = .failed error →
    error.kind = .interrupted →
      patience (write sink parts).2 < patience sink ∨ (write sink parts).2 = sink

/-- A sink that never reports more bytes than it was offered and is not interrupted for ever. -/
class ReliableSink (σ : Type) [Sink σ] : Prop where
  accepted_le : ∀ (sink : σ) parts count,
    (Sink.write sink parts).1 = .accepted count → count ≤ parts.size
  patience_lt : ∀ (sink : σ) parts error, (Sink.write sink parts).1 = .failed error →
    error.kind = .interrupted → Sink.patience (Sink.write sink parts).2 < Sink.patience sink

end Outlet
