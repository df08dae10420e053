import Outlet.Proofs.Calls

/-!
# What the descriptor has taken

The file shows what a file has taken, but the null device takes bytes and keeps none. A ledger
records every raw write to the descriptor beside standard output, whose behaviour it shares. Unless
the descriptor is bad, the ledger is balanced: what has been taken and what is still held are what
was held before and what the writes of the call reported.
-/

namespace Outlet

open WriteCall Descriptor

namespace Stdout

variable {stdout : Stdout}

theorem drainCalls_of_held_nil (hh : stdout.held = []) : stdout.drainCalls = [] := by
  rw [drainCalls, drained_of_held_nil hh]

theorem drainCalls_of_accepted {count : Nat} (hh : stdout.held ≠ [])
    (ha : (stdout.descriptor.write [stdout.held]).1 = .accepted count) :
    stdout.drainCalls =
      ⟨[stdout.held], .accepted count⟩ ::
        drainCalls ⟨(stdout.descriptor.write [stdout.held]).2, stdout.held.drop count⟩ := by
  rw [drainCalls, drained_of_accepted hh (Prod.ext ha rfl)]
  rfl

theorem drainCalls_of_failed {error : IoError} (hh : stdout.held ≠ [])
    (ha : (stdout.descriptor.write [stdout.held]).1 = .failed error) :
    stdout.drainCalls = [⟨[stdout.held], .failed error⟩] := by
  rw [drainCalls, drained_of_failed hh (Prod.ext ha rfl)]
  split <;> rfl

/-- A write fails in its drain, or makes a raw write of its own behind it. -/
theorem write_cases (stdout : Stdout) (parts : Parts) :
    (∃ error, stdout.drain.1 = .failed error ∧
        stdout.write parts = (.failed error, stdout.drain.2) ∧
        stdout.writeCalls parts = stdout.drainCalls) ∨
      stdout.drain.1 = .done ∧
        stdout.write parts =
          ((stdout.drain.2.descriptor.write parts).1,
            ⟨(stdout.drain.2.descriptor.write parts).2, stdout.drain.2.held⟩) ∧
        stdout.writeCalls parts =
          stdout.drainCalls ++ [⟨parts, (stdout.drain.2.descriptor.write parts).1⟩] := by
  rw [Stdout.write, writeCalls]
  cases h : stdout.drain.1 with
  | failed error =>
    rw [written_of_failed h]
    exact .inl ⟨error, rfl, rfl, rfl⟩
  | done =>
    rw [written_of_done h]
    exact .inr ⟨rfl, rfl, rfl⟩

/-- A write leaves what its drain leaves, and behind it the bytes that the write reports. -/
theorem snd_write (stdout : Stdout) (parts : Parts) :
    (stdout.write parts).2 =
      ⟨stdout.drain.2.descriptor.store (taken ⟨parts, (stdout.write parts).1⟩),
        stdout.drain.2.held⟩ := by
  rcases stdout.write_cases parts with ⟨error, -, hw, -⟩ | ⟨-, hw, -⟩
  · rw [hw, taken_failed, store_nil]
  · rw [hw, Descriptor.snd_write]

/-- The raw writes of a write take what its drain takes, and the bytes that the write reports. -/
theorem takenBy_writeCalls (stdout : Stdout) (parts : Parts) :
    takenBy (stdout.writeCalls parts) =
      takenBy stdout.drainCalls ++ taken ⟨parts, (stdout.write parts).1⟩ := by
  rcases stdout.write_cases parts with ⟨error, -, hw, hc⟩ | ⟨-, hw, hc⟩
  · rw [hw, hc, taken_failed, List.append_nil]
  · rw [hw, hc, takenBy_append, takenBy_cons, takenBy_nil, List.append_nil]

end Stdout

/-- Standard output and all raw writes to its descriptor. -/
structure Ledger where
  stdout : Stdout
  calls : List WriteCall

namespace Ledger

instance : Sink Ledger where
  visible _ parts := parts
  write ledger parts :=
    ((ledger.stdout.write parts).1,
      ⟨(ledger.stdout.write parts).2, ledger.calls ++ ledger.stdout.writeCalls parts⟩)
  flush ledger :=
    (ledger.stdout.drain.1, ⟨ledger.stdout.drain.2, ledger.calls ++ ledger.stdout.drainCalls⟩)
  patience _ := 0
  patience_lt_or_eq _ _ _ h hi := absurd hi (Stdout.kind_write_ne_interrupted h)

/-- The record makes no difference to standard output. -/
theorem stdout_view : SinkView Ledger.stdout where
  visible _ _ := rfl
  write _ _ := rfl
  flush _ := rfl
  patience _ := rfl

/-- What the descriptor has taken, in order. -/
def taken (ledger : Ledger) : Bytes := takenBy ledger.calls

theorem taken_write (ledger : Ledger) (parts : Parts) :
    (Sink.write ledger parts).2.taken =
      ledger.taken ++ takenBy (ledger.stdout.writeCalls parts) :=
  takenBy_append _ _

theorem taken_flush (ledger : Ledger) :
    (Sink.flush ledger).2.taken = ledger.taken ++ takenBy ledger.stdout.drainCalls :=
  takenBy_append _ _

theorem target_write (ledger : Ledger) (parts : Parts) :
    (Sink.write ledger parts).2.stdout.descriptor.target = ledger.stdout.descriptor.target :=
  ledger.stdout.target_write parts

theorem target_flush (ledger : Ledger) :
    (Sink.flush ledger).2.stdout.descriptor.target = ledger.stdout.descriptor.target :=
  ledger.stdout.target_drain

end Ledger

namespace Stdout

/-- What the descriptor takes in the course of a call. -/
def takenBySend (stdout : Stdout) (message : Message) : Bytes :=
  (deliver (Ledger.mk stdout []) message).sink.taken

variable {stdout : Stdout}

theorem calls_deliver_ledger (stdout : Stdout) (message : Message) :
    (deliver (Ledger.mk stdout []) message).calls = (deliver stdout message).calls :=
  (congrArg Delivery.calls (Ledger.stdout_view.deliver (Ledger.mk stdout []) message)).symm

theorem stdout_deliver_ledger (stdout : Stdout) (message : Message) :
    (deliver (Ledger.mk stdout []) message).sink.stdout = (send stdout message).2 :=
  (congrArg Delivery.sink (Ledger.stdout_view.deliver (Ledger.mk stdout []) message)).symm

/-! ## The descriptor stores what it has taken -/

theorem descriptor_drain (stdout : Stdout) :
    stdout.drain.2.descriptor = stdout.descriptor.store (takenBy stdout.drainCalls) := by
  change stdout.drained.stdout.descriptor = stdout.descriptor.store (takenBy stdout.drained.calls)
  fun_induction drained stdout with
  | case1 => exact (store_nil _).symm
  | case2 stdout hh call next count ha ih =>
    have hnext := Descriptor.snd_write stdout.descriptor [stdout.held]
    refine ih.trans ?_
    rw [Logged.after, takenBy_cons, ← store_store, ← hnext]
  | case3 stdout hh call next ha | case4 stdout hh call next error ha =>
    rw [takenBy_cons, takenBy_nil, List.append_nil]
    exact Descriptor.snd_write stdout.descriptor [stdout.held]

theorem descriptor_write (stdout : Stdout) (parts : Parts) :
    (stdout.write parts).2.descriptor =
      stdout.descriptor.store (takenBy (stdout.writeCalls parts)) := by
  rw [snd_write, takenBy_writeCalls, ← store_store, ← descriptor_drain]

/-- Behind a call the descriptor has stored what it has taken in the course of the call. -/
theorem descriptor_send (stdout : Stdout) (message : Message) :
    (send stdout message).2.descriptor =
      stdout.descriptor.store (stdout.takenBySend message) := by
  have hstart : (Ledger.mk stdout []).stdout.descriptor =
      stdout.descriptor.store (Ledger.mk stdout []).taken :=
    (store_nil _).symm
  have hstored := deliver_keeps
    (fun ledger : Ledger => ledger.stdout.descriptor = stdout.descriptor.store ledger.taken)
    ?_ ?_ hstart message
  · rwa [stdout_deliver_ledger] at hstored
  · intro ledger parts hk
    rw [Ledger.taken_write, ← store_store, ← hk]
    exact descriptor_write ledger.stdout parts
  · intro ledger hk
    rw [Ledger.taken_flush, ← store_store, ← hk]
    exact descriptor_drain ledger.stdout

/-! ## The balance -/

theorem drain_balance (hb : ¬ stdout.descriptor.Bad) :
    takenBy stdout.drainCalls ++ stdout.drain.2.held = stdout.held := by
  change takenBy stdout.drained.calls ++ stdout.drained.stdout.held = _
  fun_induction drained stdout with
  | case1 => rfl
  | case2 stdout hh call next count ha ih =>
    have hb' : ¬ next.Bad := by rwa [Bad, Descriptor.target_write]
    have hcall : call = ⟨[stdout.held], .accepted count⟩ := congrArg (WriteCall.mk _) ha
    rw [Logged.after, takenBy_cons, hcall, taken_accepted, List.append_assoc, ih hb',
      List.flatten_singleton, List.take_append_drop]
  | case3 stdout hh call next ha => exact absurd (Bad.of_write ha) hb
  | case4 stdout hh call next error ha =>
    have hcall : call = ⟨[stdout.held], .failed error⟩ := congrArg (WriteCall.mk _) ha
    rw [hcall, takenBy_cons, taken_failed]
    rfl

theorem write_balance (hb : ¬ stdout.descriptor.Bad) (parts : Parts) :
    takenBy (stdout.writeCalls parts) ++ (stdout.write parts).2.held =
      stdout.held ++ WriteCall.taken ⟨parts, (stdout.write parts).1⟩ := by
  have hdrain := drain_balance hb
  rw [takenBy_writeCalls, snd_write, ← hdrain, List.append_assoc, List.append_assoc]
  congr 1
  rcases stdout.write_cases parts with ⟨error, -, hw, -⟩ | ⟨hdone, -, -⟩
  · rw [hw, taken_failed, List.append_nil, List.nil_append]
  · rw [held_of_drain_done hdone, List.append_nil, List.nil_append]

/-- What the descriptor takes in the course of a call and what is held behind it, are what was held
before it and what its writes reported. -/
theorem send_balance (hb : ¬ stdout.descriptor.Bad) (message : Message) :
    stdout.takenBySend message ++ (send stdout message).2.held =
      stdout.held ++ takenBy (deliver stdout message).calls := by
  have hstart : ¬ (Ledger.mk stdout []).stdout.descriptor.Bad := hb
  have hall := deliver_collects (fun ledger : Ledger => ¬ ledger.stdout.descriptor.Bad)
    (fun ledger => ledger.taken ++ ledger.stdout.held) ?_ ?_ ?_ hstart message
  · rwa [stdout_deliver_ledger, calls_deliver_ledger] at hall
  · intro ledger parts hk
    rwa [Bad, Ledger.target_write]
  · intro ledger parts hk
    change (Sink.write ledger parts).2.taken ++ (ledger.stdout.write parts).2.held = _
    rw [Ledger.taken_write, List.append_assoc, write_balance hk, ← List.append_assoc]
    rfl
  · intro ledger hk
    change (Sink.flush ledger).2.taken ++ ledger.stdout.drain.2.held = _
    rw [Ledger.taken_flush, List.append_assoc, drain_balance hk]

end Stdout

end Outlet
