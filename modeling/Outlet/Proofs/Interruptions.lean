import Outlet.Proofs.ExactlyOnce
import Outlet.Proofs.SideBySide

/-!
# Interrupted writes

An interrupted write uses up an entry of the script and leaves everything else of the sink as it
was, and the next write makes the same offer. A session therefore goes as it would on the sink
without those entries; only the list of writes is longer. An interrupted flush is not tried again:
it is how the call fails.
-/

namespace Outlet

open WriteCall

/-- The entry does nothing but interrupt a write. -/
def WriteEntry.interrupts : WriteEntry → Bool
  | .fail error => error.kind = .interrupted
  | .accept _ | .report _ | .usual => false

/-- The write was answered with an interruption. -/
def WriteCall.interrupted (call : WriteCall) : Bool :=
  match call.answer with
  | .failed error => error.kind = .interrupted
  | .accepted _ => false

/-- The writes that were not interrupted, in order. -/
def WriteCall.uninterrupted (calls : List WriteCall) : List WriteCall :=
  calls.filter (!·.interrupted)

/-- The sink without the entries of its script that interrupt a write. -/
def ScriptedSink.uninterrupted (sink : ScriptedSink) : ScriptedSink :=
  { sink with writes := sink.writes.filter (!·.interrupts) }

/-- The report without the writes that were interrupted. -/
def ScriptedSink.Report.uninterrupted (report : Report) : Report :=
  { report with calls := WriteCall.uninterrupted report.calls }

def Written.uninterrupted (written : Written ScriptedSink) : Written ScriptedSink :=
  ⟨WriteCall.uninterrupted written.calls, written.ending, written.sink.uninterrupted⟩

def Delivery.uninterrupted (delivery : Delivery ScriptedSink) : Delivery ScriptedSink :=
  ⟨WriteCall.uninterrupted delivery.calls, delivery.flush, delivery.outcome,
    delivery.sink.uninterrupted⟩

namespace Written

variable {call : WriteCall}

theorem uninterrupted_single (h : call.interrupted = false) (ending : WriteEnd)
    (sink : ScriptedSink) :
    uninterrupted ⟨[call], ending, sink⟩ = ⟨[call], ending, sink.uninterrupted⟩ := by
  simp [uninterrupted, WriteCall.uninterrupted, h]

theorem uninterrupted_after (h : call.interrupted = false) (written : Written ScriptedSink) :
    (written.after call).uninterrupted = written.uninterrupted.after call := by
  simp [uninterrupted, after, WriteCall.uninterrupted, h]

theorem uninterrupted_after_interrupted (h : call.interrupted) (written : Written ScriptedSink) :
    (written.after call).uninterrupted = written.uninterrupted := by
  simp [uninterrupted, after, WriteCall.uninterrupted, h]

end Written

namespace ScriptedSink

variable {sink : ScriptedSink} {parts : Parts}

/-! ## One write -/

theorem uninterrupted_of_nil (h : sink.writes = []) : sink.uninterrupted = sink := by
  rw [uninterrupted, h, List.filter_nil, ← h]

theorem uninterrupted_settle (sink : ScriptedSink) (offer : Bytes) (answer : WriteAnswer) :
    (sink.settle offer answer).uninterrupted = sink.uninterrupted.settle offer answer := by
  cases answer <;> rfl

/-- An interrupted write leaves the sink as it was, but for an entry that interrupts. -/
theorem write_of_interrupted (hp : sink.Patient) {error : IoError}
    (ha : (sink.write parts).1 = .failed error) (hi : error.kind = .interrupted) :
    (sink.write parts).2.uninterrupted = sink.uninterrupted := by
  cases hw : sink.writes with
  | nil =>
    have hless := hp.patience_lt ha hi
    rw [hw] at hless
    exact absurd hless (Nat.not_lt_zero _)
  | cons entry rest =>
    have hentry : entry.interrupts := by
      rw [fst_write, hw, List.headD_cons] at ha
      cases entry with
      | accept | report => cases ha
      | fail other =>
        obtain rfl := WriteAnswer.failed.inj ha
        exact decide_eq_true hi
      | usual => exact absurd hi (hp.usualAnswer ha)
    rw [snd_write, ha, uninterrupted_settle]
    simp [settle, uninterrupted, hw, hentry]

/-- Any other write is the same without the entries that interrupt. -/
theorem write_uninterrupted {answer : WriteAnswer} (ha : (sink.write parts).1 = answer)
    (hi : ∀ error, answer = .failed error → error.kind ≠ .interrupted) :
    sink.uninterrupted.write parts = (answer, (sink.write parts).2.uninterrupted) := by
  cases hw : sink.writes with
  | nil =>
    have hnext : (sink.write parts).2.writes = [] := by rw [writes_write, hw, List.tail_nil]
    rw [uninterrupted_of_nil hw, uninterrupted_of_nil hnext, ← ha]
  | cons entry rest =>
    have hentry : entry.interrupts = false := by
      rw [fst_write, hw, List.headD_cons] at ha
      cases entry with
      | accept | report | usual => rfl
      | fail error => exact decide_eq_false (hi error ha.symm)
    have hrest : sink.uninterrupted.writes = entry :: rest.filter (!·.interrupts) := by
      simp [uninterrupted, hw, hentry]
    have hanswer : (sink.uninterrupted.write parts).1 = answer := by
      rw [← ha, fst_write, fst_write, hrest, hw]
      cases entry <;> rfl
    refine Prod.ext hanswer ?_
    rw [snd_write, hanswer, snd_write, ha, uninterrupted_settle, hrest, hw]
    rfl

/-! ## One call -/

/-- The loop goes the same way without the entries that interrupt, turn by turn but for the turns
that they interrupted. -/
theorem writeAll_uninterrupted (hp : sink.Patient) (parts : Parts) :
    writeAll sink.uninterrupted parts = (writeAll sink parts).uninterrupted := by
  fun_induction writeAll sink parts with
  | case1 sink => exact writeAll_nil _
  | case2 sink parts hne call next ha =>
    have hcall : call.interrupted = false := by simp [interrupted, call, ha]
    rw [writeAll_of_zero hne (write_uninterrupted ha (by simp)),
      Written.uninterrupted_single hcall, ← ha]
    rfl
  | case3 sink parts hne call next count ha hr =>
    have hcall : call.interrupted = false := by simp [interrupted, call, ha]
    rw [writeAll_of_overrun hne (write_uninterrupted ha (by simp)) (Nat.succ_pos count) hr,
      Written.uninterrupted_single hcall, ← ha]
    rfl
  | case4 sink parts hne call next count ha rest hr ih =>
    have hcall : call.interrupted = false := by simp [interrupted, call, ha]
    rw [writeAll_of_accepted hne (write_uninterrupted ha (by simp)) (Nat.succ_pos count) hr,
      Written.uninterrupted_after hcall, ← ih (hp.write parts), ← ha]
    rfl
  | case5 sink parts hne call next error ha hi hpat ih =>
    have hcall : call.interrupted := by simp [interrupted, call, ha, hi]
    have hnext : next.uninterrupted = sink.uninterrupted := write_of_interrupted hp ha hi
    rw [Written.uninterrupted_after_interrupted hcall, ← ih (hp.write parts), hnext]
  | case6 sink parts hne call next error ha hi hpat => exact absurd (hp.patience_lt ha hi) hpat
  | case7 sink parts hne call next error ha hi =>
    have hcall : call.interrupted = false := by simp [interrupted, call, ha, hi]
    rw [writeAll_of_failed hne (write_uninterrupted ha (by simpa using hi)) hi,
      Written.uninterrupted_single hcall, ← ha]
    rfl

theorem flush_uninterrupted (sink : ScriptedSink) :
    Sink.flush sink.uninterrupted =
      ((Sink.flush sink).1, (Sink.flush sink).2.uninterrupted) := by
  show sink.uninterrupted.flush = (sink.flush.1, sink.flush.2.uninterrupted)
  simp only [flush, uninterrupted]
  split <;> rfl

theorem deliver_uninterrupted (hp : sink.Patient) (message : Message) :
    deliver sink.uninterrupted message = (deliver sink message).uninterrupted := by
  rw [deliver, deliver, deliverParts, deliverParts, writeAll_uninterrupted hp,
    Written.uninterrupted, flush_uninterrupted]
  cases (writeAll sink message.parts.dropEmpty).ending <;> rfl

/-! ## Steps and runs -/

theorem step_uninterrupted (hp : sink.Patient) (config : Config) (next : Step) :
    step config sink.uninterrupted next =
      ((step config sink next).1.uninterrupted, (step config sink next).2.uninterrupted) := by
  cases next with
  | poke bytes => rfl
  | call form message =>
    simp only [step, deliver_uninterrupted hp, Delivery.uninterrupted]
    split <;> rfl

theorem run_uninterrupted (hp : sink.Patient) (config : Config) (steps : List Step) :
    run config sink.uninterrupted steps =
      ((run config sink steps).1.map Report.uninterrupted,
        (run config sink steps).2.uninterrupted) := by
  have hstep : ∀ (state other : ScriptedSink) (next : Step),
      state.Patient ∧ other = state.uninterrupted →
        (step config state next).1.uninterrupted = id (step config other next).1 ∧
          (step config state next).2.Patient ∧
            (step config other next).2 = (step config state next).2.uninterrupted := by
    rintro state other next ⟨hp, rfl⟩
    rw [step_uninterrupted hp]
    exact ⟨rfl, hp.step config next, rfl⟩
  obtain ⟨hreports, -, hlast⟩ := Session.run_map_eq hstep ⟨hp, rfl⟩ steps
  rw [List.map_id] at hreports
  exact Prod.ext hreports.symm hlast

/-! ## An interrupted flush -/

/-- The writes of a call have succeeded if they reported the whole text. -/
theorem complete_of_reportedBy (message : Message)
    (hall : reportedBy (deliver sink message).calls = message.text.length) :
    (writeAll sink message.parts.dropEmpty).ending = .complete := by
  have ht := Parts.trimmed_dropEmpty message.parts
  have hagrees := writeAll_agrees sink ht
  have hsize : message.parts.dropEmpty.size = message.text.length := Parts.size_dropEmpty _
  rw [← calls_deliver, hall, hsize] at hagrees
  cases he : (writeAll sink message.parts.dropEmpty).ending with
  | complete => rfl
  | failed | stalled | overrun =>
    rw [he] at hagrees
    exact absurd hagrees (Nat.lt_irrefl _)

theorem flushes_write (sink : ScriptedSink) (parts : Parts) :
    (sink.write parts).2.flushes = sink.flushes := by
  rw [snd_write]
  cases (sink.write parts).1 <;> rfl

theorem flushes_writeAll (sink : ScriptedSink) (parts : Parts) :
    (writeAll sink parts).sink.flushes = sink.flushes :=
  writeAll_keeps (fun s : ScriptedSink => s.flushes = sink.flushes)
    (fun s p h => (flushes_write s p).trans h) rfl parts

theorem flush_of_fail {error : IoError} {rest : List FlushEntry}
    (hf : sink.flushes = .fail error :: rest) :
    sink.flush = (.failed error, { sink with flushes := rest }) := by
  rw [flush, hf]
  rfl

/-- A flush that fails is made once and is the call's failure, if the writes have succeeded. -/
theorem deliver_of_flush_failed {error : IoError} {rest : List FlushEntry}
    (hf : sink.flushes = .fail error :: rest) (message : Message)
    (hall : reportedBy (deliver sink message).calls = message.text.length) :
    (deliver sink message).flush = some (.failed error) ∧
      (deliver sink message).outcome = .returned (.failed (.ofFlush error)) ∧
      (deliver sink message).sink.flushes = rest := by
  have hflush := flush_of_fail ((flushes_writeAll sink message.parts.dropEmpty).trans hf)
  rw [deliver_of_complete (complete_of_reportedBy message hall)]
  refine ⟨congrArg (some ·.1) hflush, ?_, congrArg (·.2.flushes) hflush⟩
  show Outcome.returned (.ofEnds _ none (flush _).1) = _
  rw [hflush]
  rfl

/-! ## Whole sessions -/

theorem Patient.of_uninterrupted_eq {other : ScriptedSink} (hp : sink.Patient)
    (he : other.uninterrupted = sink.uninterrupted) : other.Patient := by
  have honFull := congrArg onFull he
  change other.onFull = sink.onFull at honFull
  rw [Patient, honFull]
  exact hp

/-- Taking the entries that interrupt a write out of the script, all of them or some, changes no
report but for the writes they interrupted, and nothing of the sink but its script. An interrupted
flush is made once, and fails the call. -/
theorem run_ignores_interruptions (hp : sink.Patient) (config : Config) (steps : List Step) :
    run config sink.uninterrupted steps =
        ((run config sink steps).1.map Report.uninterrupted,
          (run config sink steps).2.uninterrupted) ∧
      (∀ other : ScriptedSink, other.uninterrupted = sink.uninterrupted →
        (run config other steps).1.map Report.uninterrupted =
            (run config sink steps).1.map Report.uninterrupted ∧
          (run config other steps).2.uninterrupted = (run config sink steps).2.uninterrupted) ∧
      ∀ (state : ScriptedSink) (form : Form) (message : Message) (error : IoError)
        (rest : List FlushEntry),
        let report := (step config state (.call form message)).1
        state.flushes = .fail error :: rest → error.kind = .interrupted →
        reportedBy report.calls = message.text.length →
          report.answer = .reply (form.reply (.failed (.flush .interrupted error.message))) ∧
            report.flush = some (.failed error) ∧
            (step config state (.call form message)).2.flushes = rest := by
  have hrun := run_uninterrupted hp config steps
  refine ⟨hrun, ?_, ?_⟩
  · intro other he
    have hother := run_uninterrupted (hp.of_uninterrupted_eq he) config steps
    rw [he] at hother
    exact Prod.mk.inj (hother.symm.trans hrun)
  · intro state form message error rest report hf hi hall
    rw [calls_step] at hall
    obtain ⟨hflush, houtcome, hrest⟩ := deliver_of_flush_failed hf message hall
    obtain ⟨hsink, -, hflush', hanswer⟩ := step_call houtcome config form
    rw [CallError.ofFlush, hi] at hanswer
    exact ⟨hanswer, hflush'.trans hflush, (congrArg flushes hsink).trans hrest⟩

/-- A write that is interrupted before it, between its parts and behind it, and a call without a
text whose flush is interrupted. -/
theorem run_ignores_interruptions_between_parts :
    let error : IoError := .system 4
    let sink : ScriptedSink :=
      ⟨false, [.fail (.plain .interrupted), .accept 2, .fail (.worded .interrupted "again"),
        .fail error], [.fail error], none, some 3, some (.plain .brokenPipe), [], []⟩
    let steps : List Step := [.call .coded (.bytes .line [97, 98, 99]), .poke [33]]
    sink.Patient ∧
      run ⟨true⟩ { sink with writes := [.accept 2] } steps =
        ((run ⟨true⟩ sink steps).1.map Report.uninterrupted,
          (run ⟨true⟩ sink steps).2.uninterrupted) ∧
      (step ⟨true⟩ sink (.call .typed (.bytes .string []))).1.answer =
        .reply (.result (.failed (.flush .interrupted "Interrupted system call (os error 4)"))) := by
  intro error sink steps
  have hp : sink.Patient := by
    intro other he
    cases he
    decide
  obtain ⟨hrun, -, hflush⟩ := run_ignores_interruptions hp ⟨true⟩ steps
  have hnone : reportedBy (step ⟨true⟩ sink (.call .typed (.bytes .string []))).1.calls = 0 := by
    rw [calls_step, calls_deliver]
    show reportedBy (writeAll sink []).calls = 0
    rw [writeAll_nil]
    rfl
  exact ⟨hp, hrun, (hflush sink .typed (.bytes .string []) error [] rfl rfl hnone).1⟩

end ScriptedSink

end Outlet
