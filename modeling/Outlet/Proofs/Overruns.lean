import Outlet.Proofs.Calls
import Outlet.Proofs.DeliveryShape

/-!
# Reports past the text

A call is broken off when a write reports more bytes than are left of the text, counted by the
reports before it and not by what the sink was offered: a sink that is shown one part at a time may
report more than that part and never be found out. The call is then not flushed, and what the sink
took stays pending until a later flush succeeds. On a sink that reports no more than it is offered,
and on standard output, no call is broken off.
-/

namespace Outlet

open WriteCall

/-! ## The report that is too much -/

/-- Reports add up to more than a number if one of them does with those before it. -/
theorem WriteCall.lt_reportedBy_iff (size : Nat) (calls : List WriteCall) :
    size < reportedBy calls ↔ ∃ before call after, calls = before ++ call :: after ∧
      size < reportedBy before + call.reported := by
  constructor
  · intro h
    rcases calls.eq_nil_or_concat with rfl | ⟨before, last, rfl⟩
    · exact absurd h (Nat.not_lt_zero size)
    · rw [List.concat_eq_append, reportedBy_append, reportedBy_cons, reportedBy_nil,
        Nat.add_zero] at h
      exact ⟨before, last, [], List.concat_eq_append, h⟩
  · rintro ⟨before, call, after, rfl, h⟩
    rw [reportedBy_append, reportedBy_cons]
    omega

variable {σ : Type} [Sink σ]

/-- The loop overruns when the reports add up to more than there is. -/
theorem writeAll_overrun_iff (sink : σ) {parts : Parts} (ht : parts.Trimmed) :
    (writeAll sink parts).ending = .overrun ↔
      parts.size < reportedBy (writeAll sink parts).calls := by
  have hagrees := writeAll_agrees sink ht
  cases he : (writeAll sink parts).ending <;> rw [he] at hagrees <;>
    simp only [WriteEnd.Agrees] at hagrees <;> simp <;> omega

/-- Something is left of the text before every write. -/
theorem reportedBy_lt_of_calls_writeAll {sink : σ} {parts : Parts} (ht : parts.Trimmed)
    {before after : List WriteCall} {call : WriteCall}
    (h : (writeAll sink parts).calls = before ++ call :: after) :
    reportedBy before < parts.size := by
  have hturn : Turn (fun _ : σ => True) parts before call :=
    writeAll_turn (fun _ _ h => h) trivial ht before h
  obtain ⟨state, rest, -, hr, hne, -⟩ := hturn
  exact (Parts.left_of_advance? hr hne).lt_size

theorem outcome_deliver_overrun_iff (sink : σ) (message : Message) :
    (deliver sink message).outcome = .overrun ↔
      (writeAll sink message.parts.dropEmpty).ending = .overrun := by
  rw [deliver, deliverParts]
  split <;> simp_all

theorem deliver_overrun_iff (sink : σ) (message : Message) :
    (deliver sink message).outcome = .overrun ↔
      message.text.length < reportedBy (deliver sink message).calls := by
  rw [outcome_deliver_overrun_iff, writeAll_overrun_iff sink (Parts.trimmed_dropEmpty _),
    calls_deliver, Parts.size_dropEmpty]
  rfl

/-- A delivery that overruns is not flushed. -/
theorem flush_deliver_of_overrun {sink : σ} {message : Message}
    (h : (deliver sink message).outcome = .overrun) : (deliver sink message).flush = none := by
  rw [deliver, deliverParts] at h ⊢
  split at h
  next => rfl
  next => cases h
  next => cases h
  next => cases h

/-! ## What a step of a scripted sink leaves -/

namespace ScriptedSink

/-- The bytes that a step added to the sink, by what it reports. -/
def Step.added (report : Report) : Step → Bytes
  | .call _ _ => takenBy report.calls
  | .poke bytes => bytes

theorem moves_step (config : Config) (sink : ScriptedSink) (next : Step) :
    Moves sink (step config sink next).2 (step config sink next).1.flush
      (next.added (step config sink next).1) := by
  cases next with
  | poke bytes => exact moves_of_unflushed rfl rfl
  | call form message =>
    have hmoves := moves_deliver sink message
    rw [Step.added, calls_step]
    simp only [step]
    split <;> exact hmoves

theorem delivered_step (config : Config) (sink : ScriptedSink) (next : Step) :
    (step config sink next).1.delivered =
      (step config sink next).2.out.drop sink.out.length := by
  cases next with
  | poke bytes => exact (List.drop_length ..).symm
  | call form message =>
    simp only [step]
    split <;> rfl

/-- A step that is flushed delivers first what was pending. -/
theorem pending_prefix_delivered {config : Config} {sink : ScriptedSink} {next : Step}
    (hf : (step config sink next).1.flush = some .done) :
    sink.pending <+: (step config sink next).1.delivered := by
  rw [delivered_step, ((moves_step config sink next).moved hf).1, List.drop_left]
  exact List.prefix_append _ _

/-- What is pending stays in front until a step is flushed. -/
theorem pending_prefix_run {config : Config} {sink : ScriptedSink} {steps : List Step}
    (hf : ∀ report ∈ (run config sink steps).1, report.flush ≠ some .done) :
    sink.pending <+: (run config sink steps).2.pending := by
  induction steps generalizing sink with
  | nil => exact List.prefix_rfl
  | cons first rest ih =>
    obtain ⟨hfirst, hrest⟩ := List.forall_mem_cons.mp hf
    have hstep := ((moves_step config sink first).held hfirst).2
    exact (hstep ▸ List.prefix_append _ _).trans (ih hrest)

/-! ## Calls that are broken off -/

theorem answer_step_overrun_iff (config : Config) (sink : ScriptedSink) (form : Form)
    (message : Message) :
    (step config sink (.call form message)).1.answer = .overrun ↔
      (deliver sink message).outcome = .overrun := by
  simp only [step]
  split <;> simp_all

/-- What a call that is broken off leaves of a sink: nothing more is out, and what the sink took is
pending, with what was pending before, until a later step is flushed. -/
structure BrokenOff (config : Config) (sink : ScriptedSink) (report : Report)
    (next : ScriptedSink) : Prop where
  unflushed : report.flush = none
  silent : report.trace = ""
  delivered : report.delivered = []
  out : next.out = sink.out
  pending : next.pending = sink.pending ++ takenBy report.calls
  later : ∀ between last, (∀ report ∈ (run config next between).1, report.flush ≠ some .done) →
    (step config (run config next between).2 last).1.flush = some .done →
      next.pending <+: (step config (run config next between).2 last).1.delivered

theorem brokenOff_of_overrun {config : Config} {sink : ScriptedSink} {form : Form}
    {message : Message} (ho : (deliver sink message).outcome = .overrun) :
    BrokenOff config sink (step config sink (.call form message)).1
      (step config sink (.call form message)).2 := by
  have hflush : (step config sink (.call form message)).1.flush = none := by
    have hnone := flush_deliver_of_overrun ho
    simpa [step, ho] using hnone
  have hmoves := moves_step config sink (.call form message)
  obtain ⟨hout, hpending⟩ := hmoves.held (by simp [hflush])
  refine ⟨hflush, by simp [step, ho], ?_, hout, hpending, ?_⟩
  · rw [delivered_step, hout, List.drop_length]
  · intro between last hbetween hlast
    exact (pending_prefix_run hbetween).trans (pending_prefix_delivered hlast)

theorem answer_ne_overrun_of_honest {config : Config} {sink : ScriptedSink} {next : Step}
    (hh : ∀ call ∈ (step config sink next).1.calls, call.Honest) :
    (step config sink next).1.answer ≠ .overrun := by
  cases next with
  | poke bytes => exact Answer.noConfusion
  | call form message =>
    rw [calls_step, calls_deliver] at hh
    rw [ne_eq, answer_step_overrun_iff, outcome_deliver_overrun_iff]
    exact writeAll_ending_ne_overrun flatten_visible sink (Parts.trimmed_dropEmpty _) hh

/-- No call of a truthful run is broken off. -/
theorem Truthful.answer_ne_overrun {config : Config} {sink : ScriptedSink} {steps : List Step}
    (ht : Truthful config sink steps) :
    ∀ report ∈ (run config sink steps).1, report.answer ≠ .overrun := by
  induction steps generalizing sink with
  | nil => exact List.forall_mem_nil _
  | cons first rest ih =>
    obtain ⟨hfirst, hrest⟩ := truthful_cons.mp ht
    exact List.forall_mem_cons.mpr ⟨answer_ne_overrun_of_honest hfirst, ih hrest⟩

end ScriptedSink

/-! ## Standard output -/

/-- A call on standard output is never broken off: no write reports more than it is offered, and the
call answers with its result. -/
theorem Stdout.call_returns {call : Stdout.Step} {form : Form} {message : Message}
    (hc : call.call? = some (form, message)) (config : Config) (stdout : Stdout) :
    ∃ result, (deliver stdout message).outcome = .returned result ∧
      (∀ written ∈ (deliver stdout message).calls, written.reported ≤ written.offer.size) ∧
      (Stdout.step config stdout call).1.answer = .reply (form.reply result) := by
  obtain ⟨result, hr⟩ := exists_deliver_outcome stdout message
  refine ⟨result, hr, ?_, ?_⟩
  · intro written hmem
    rw [calls_deliver] at hmem
    exact (honest_iff written).mp (Stdout.honest_of_mem_calls stdout _ written hmem)
  · rw [(Stdout.step_of_call? hc config stdout).1, send_of_returned hr]

namespace ScriptedSink

/-! ## When a call is broken off -/

/-- Something is left of the text before every write of a call. -/
theorem reportedBy_lt_of_calls_step {config : Config} {sink : ScriptedSink} {form : Form}
    {message : Message} {before after : List WriteCall} {call : WriteCall}
    (h : (step config sink (.call form message)).1.calls = before ++ call :: after) :
    reportedBy before < message.text.length := by
  rw [calls_step, calls_deliver] at h
  have hless := reportedBy_lt_of_calls_writeAll (Parts.trimmed_dropEmpty _) h
  rwa [Parts.size_dropEmpty] at hless

theorem call_overruns_iff (config : Config) (sink : ScriptedSink) (form : Form)
    (message : Message) :
    (step config sink (.call form message)).1.answer = .overrun ↔
      ∃ before call after,
        (step config sink (.call form message)).1.calls = before ++ call :: after ∧
          message.text.length - reportedBy before < call.reported := by
  rw [answer_step_overrun_iff, deliver_overrun_iff, lt_reportedBy_iff,
    ← calls_step config sink form message]
  constructor
  · rintro ⟨before, call, after, h, hmore⟩
    have hless := reportedBy_lt_of_calls_step h
    exact ⟨before, call, after, h, by omega⟩
  · rintro ⟨before, call, after, h, hmore⟩
    exact ⟨before, call, after, h, by omega⟩

/-- A call on a patient sink is broken off if and only if one of its writes reports more than is
left of the text behind the reports before it, which is something before every write. It is then not
flushed, and what the sink took stays in front of what a later flush moves out. Writes that report
no more than they are offered break off no call of a run, and no call on standard output is ever
broken off. -/
theorem call_breaks_off {sink : ScriptedSink} (hp : sink.Patient) (config : Config) (form : Form)
    (message : Message) :
    ((step config sink (.call form message)).1.answer = .overrun ↔
      ∃ before call after,
        (step config sink (.call form message)).1.calls = before ++ call :: after ∧
          message.text.length - reportedBy before < call.reported) ∧
      (∀ before call after,
        (step config sink (.call form message)).1.calls = before ++ call :: after →
          reportedBy before < message.text.length) ∧
      ((step config sink (.call form message)).1.answer = .overrun →
        BrokenOff config sink (step config sink (.call form message)).1
            (step config sink (.call form message)).2 ∧
          ∀ record, (deliver (⟨sink, hp, record⟩ : Recorder) message).sink.record =
            record ++ (step config sink (.call form message)).1.calls.map .write) ∧
      (∀ steps, (∀ report ∈ (run config sink steps).1, ∀ call ∈ report.calls,
          call.reported ≤ call.offer.size) →
        ∀ report ∈ (run config sink steps).1, report.answer ≠ .overrun) ∧
      ∀ (stdout : Stdout) (before : List Stdout.Step) (call : Stdout.Step) (form : Form)
        (message : Message), call.call? = some (form, message) →
          ∃ result,
            (deliver (Stdout.run config stdout before).2 message).outcome = .returned result ∧
              (∀ written ∈ (deliver (Stdout.run config stdout before).2 message).calls,
                written.reported ≤ written.offer.size) ∧
              (Stdout.step config (Stdout.run config stdout before).2 call).1.answer =
                .reply (form.reply result) := by
  refine ⟨call_overruns_iff config sink form message, ?_, ?_, ?_, ?_⟩
  · intro before call after h
    exact reportedBy_lt_of_calls_step h
  · intro ho
    have houtcome := (answer_step_overrun_iff config sink form message).mp ho
    refine ⟨brokenOff_of_overrun houtcome, ?_⟩
    intro record
    rw [Recorder.record_deliver, flush_deliver_of_overrun houtcome, calls_step]
    simp
  · intro steps hh
    have ht : Truthful config sink steps := by
      intro report hreport call hcall
      exact (honest_iff call).mpr (hh report hreport call hcall)
    exact ht.answer_ne_overrun
  · intro stdout before call form message hc
    exact Stdout.call_returns hc config _

/-- A sink that is shown the rest of a message without its newline reports more than both. An empty
call delivers what it took, behind a byte that was pending before and in front of one put in later.
-/
theorem call_breaks_off_behind_a_part :
    let sink : ScriptedSink :=
      ⟨false, [.report 1, .report 3], [], none, none, some (.plain .brokenPipe), [], [120]⟩
    let first := step ⟨true⟩ sink (.call .coded (.bytes .line [97, 98]))
    let later := step ⟨true⟩ (run ⟨true⟩ first.2 [.poke [33]]).2 (.call .typed (.bytes .string []))
    sink.Patient ∧
      first.1.calls = [⟨[[97, 98]], .accepted 1⟩, ⟨[[98]], .accepted 3⟩] ∧
      first.1.answer = .overrun ∧ later.1.flush = some .done ∧
      first.2.pending = [120] ++ [97, 98] ∧ first.2.pending <+: later.1.delivered := by
  intro sink first later
  have hp : sink.Patient := by
    intro error he
    cases he
    decide
  let cut : ScriptedSink := { sink with writes := [.report 3], pending := [120, 97] }
  let past : ScriptedSink := { cut with writes := [], pending := [120, 97, 98] }
  have hcut : Sink.write sink [[97, 98], [10]] = (.accepted 1, cut) := rfl
  have hover : Sink.write cut [[98], [10]] = (.accepted 3, past) := rfl
  have hone : Parts.advance? 1 [[97, 98], [10]] = some [[98], [10]] := rfl
  have hthree : Parts.advance? 3 [[98], [10]] = none := rfl
  have hwritten : writeAll sink (Message.parts (.bytes .line [97, 98])).dropEmpty =
      ⟨[⟨[[97, 98]], .accepted 1⟩, ⟨[[98]], .accepted 3⟩], .overrun, past⟩ := by
    change writeAll sink [[97, 98], [10]] = _
    rw [writeAll_of_accepted (by decide) hcut (by decide) hone,
      writeAll_of_overrun (by decide) hover (by decide) hthree]
    rfl
  have hdelivery : deliver sink (.bytes .line [97, 98]) =
      ⟨[⟨[[97, 98]], .accepted 1⟩, ⟨[[98]], .accepted 3⟩], none, .overrun, past⟩ := by
    rw [deliver, deliverParts, hwritten]
  have hcalls : first.1.calls = [⟨[[97, 98]], .accepted 1⟩, ⟨[[98]], .accepted 3⟩] := by
    simp only [first, step, hdelivery]
  have hnext : first.2 = past := by simp only [first, step, hdelivery]
  have hempty (sink : ScriptedSink) :
      writeAll sink (Message.parts (.bytes .string [])).dropEmpty = ⟨[], .complete, sink⟩ :=
    writeAll_nil sink
  have hflush : later.1.flush = some .done := by
    simp only [later, hnext, step, deliver, deliverParts, hempty]
    rfl
  obtain ⟨hiff, -, hbroken, -⟩ := call_breaks_off hp ⟨true⟩ .coded (.bytes .line [97, 98])
  have hmore : first.1.answer = .overrun :=
    hiff.mpr ⟨[⟨[[97, 98]], .accepted 1⟩], ⟨[[98]], .accepted 3⟩, [], hcalls, by decide⟩
  obtain ⟨hleft, -⟩ := hbroken hmore
  refine ⟨hp, hcalls, hmore, hflush, ?_, hleft.later [.poke [33]] _ ?_ hflush⟩
  · rw [hleft.pending]
    change [120] ++ takenBy first.1.calls = _
    rw [hcalls]
    rfl
  · simp [run, step]

end ScriptedSink

end Outlet
