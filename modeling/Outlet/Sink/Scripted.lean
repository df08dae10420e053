import Outlet.Sink

/-!
# Scripted sinks

A scripted sink keeps the bytes it has taken as pending and moves them out at a flush. What it
answers to each write and flush is laid down in two lists; once a list is used up, its usual
behaviour goes on for ever.
-/

namespace Outlet

inductive WriteEntry where
  /-- Takes up to `count` bytes. -/
  | accept (count : Nat)
  /-- Takes up to `count` bytes and reports `count`. -/
  | report (count : Nat)
  | fail (error : IoError)
  | usual
  deriving DecidableEq

inductive FlushEntry where
  | fail (error : IoError)
  | usual
  deriving DecidableEq

structure ScriptedSink where
  /-- Whether the sink gets to see all the parts of an offer or only the first that is not empty. -/
  vectored : Bool
  writes : List WriteEntry
  flushes : List FlushEntry
  /-- The most bytes it usually takes at once. -/
  chunk : Option Nat
  /-- The most bytes it usually takes in all. -/
  limit : Option Nat
  /-- What it usually fails with once it has taken `limit` bytes. -/
  onFull : Option IoError
  out : Bytes
  pending : Bytes

namespace ScriptedSink

/-- A sink without a script that takes everything. -/
def accepting (vectored : Bool) : ScriptedSink :=
  ⟨vectored, [], [], none, none, none, [], []⟩

def visible (sink : ScriptedSink) (parts : Parts) : Parts :=
  if sink.vectored then parts else parts.dropEmpty.take 1

/-- Takes bytes, without an answer. -/
def append (sink : ScriptedSink) (bytes : Bytes) : ScriptedSink :=
  { sink with pending := sink.pending ++ bytes }

/-- How many more bytes the sink usually takes, if there is a limit. -/
def room? (sink : ScriptedSink) : Option Nat :=
  sink.limit.map (· - (sink.out.length + sink.pending.length))

def usualAnswer (sink : ScriptedSink) (offer : Bytes) : WriteAnswer :=
  let count := min offer.length (sink.chunk.getD offer.length)
  match sink.room?, sink.onFull with
  | some 0, some error => .failed error
  | some room, _ => .accepted (min count room)
  | none, _ => .accepted count

/-- The answer to a write on which an entry decides. -/
def answer (sink : ScriptedSink) (offer : Bytes) : WriteEntry → WriteAnswer
  | .accept count => .accepted (min count offer.length)
  | .report count => .accepted count
  | .fail error => .failed error
  | .usual => sink.usualAnswer offer

/-- Takes the bytes of an offer that an answer reports, as far as there are any. -/
def settle (sink : ScriptedSink) (offer : Bytes) : WriteAnswer → ScriptedSink
  | .accepted count => sink.append (offer.take count)
  | .failed _ => sink

def write (sink : ScriptedSink) (parts : Parts) : WriteAnswer × ScriptedSink :=
  let offer := (sink.visible parts).flatten
  let answer := sink.answer offer (sink.writes.headD .usual)
  (answer, { sink with writes := sink.writes.tail }.settle offer answer)

def flush (sink : ScriptedSink) : FlushAnswer × ScriptedSink :=
  let next := { sink with flushes := sink.flushes.tail }
  match sink.flushes.headD .usual with
  | .fail error => (.failed error, next)
  | .usual => (.done, { next with out := sink.out ++ sink.pending, pending := [] })

theorem fst_write (sink : ScriptedSink) (parts : Parts) :
    (sink.write parts).1 =
      sink.answer (sink.visible parts).flatten (sink.writes.headD .usual) := rfl

theorem snd_write (sink : ScriptedSink) (parts : Parts) :
    (sink.write parts).2 =
      { sink with writes := sink.writes.tail }.settle (sink.visible parts).flatten
        (sink.write parts).1 := rfl

/-! ## All that the sink has taken -/

/-- The bytes that the sink has taken, in order. -/
def taken (sink : ScriptedSink) : Bytes := sink.out ++ sink.pending

theorem taken_append (sink : ScriptedSink) (bytes : Bytes) :
    (sink.append bytes).taken = sink.taken ++ bytes := by
  simp [taken, append]

@[simp] theorem out_settle (sink : ScriptedSink) (offer : Bytes) (answer : WriteAnswer) :
    (sink.settle offer answer).out = sink.out := by
  cases answer <;> rfl

@[simp] theorem out_write (sink : ScriptedSink) (parts : Parts) :
    (sink.write parts).2.out = sink.out := by
  simp [write]

/-- What a write reports it has taken, as far as it was offered. -/
theorem taken_write_accepted {sink : ScriptedSink} {parts : Parts} {count : Nat}
    (h : (sink.write parts).1 = .accepted count) :
    (sink.write parts).2.taken = sink.taken ++ (sink.visible parts).flatten.take count := by
  simp only [write] at h ⊢
  rw [h]
  simp [settle, taken, append]

theorem taken_write_failed {sink : ScriptedSink} {parts : Parts} {error : IoError}
    (h : (sink.write parts).1 = .failed error) : (sink.write parts).2.taken = sink.taken := by
  simp only [write] at h ⊢
  rw [h]
  rfl

/-- A flush moves what is pending out, or fails and moves nothing. -/
theorem flush_cases (sink : ScriptedSink) :
    sink.flush.1 = .done ∧ sink.flush.2.out = sink.taken ∧ sink.flush.2.pending = [] ∨
      (∃ error, sink.flush.1 = .failed error) ∧ sink.flush.2.out = sink.out ∧
        sink.flush.2.pending = sink.pending := by
  rw [flush]
  split
  next error _ => exact .inr ⟨⟨error, rfl⟩, rfl, rfl⟩
  next => exact .inl ⟨rfl, rfl, rfl⟩

theorem taken_flush (sink : ScriptedSink) : sink.flush.2.taken = sink.taken := by
  rcases sink.flush_cases with ⟨-, ho, hp⟩ | ⟨-, ho, hp⟩
  · rw [taken, ho, hp, List.append_nil]
  · rw [taken, ho, hp, taken]

/-- A write that fails uses up an entry of the script, or leaves the sink as it was. -/
theorem write_failed {sink : ScriptedSink} {parts : Parts} {error : IoError}
    (h : (sink.write parts).1 = .failed error) :
    (sink.write parts).2.writes.length < sink.writes.length ∨ (sink.write parts).2 = sink := by
  simp only [write] at h ⊢
  rw [h]
  cases hw : sink.writes with
  | nil => exact .inr (by rw [settle, List.tail_nil, ← hw])
  | cons entry rest => exact .inl (by simp [settle])

instance : Sink ScriptedSink where
  visible := visible
  write := write
  flush := flush
  patience sink := sink.writes.length
  patience_lt_or_eq _ _ _ h _ := write_failed h

end ScriptedSink

end Outlet
