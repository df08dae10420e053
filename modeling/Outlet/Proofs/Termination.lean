import Outlet.Proofs.Interruptions
import Outlet.Proofs.Ledger

/-!
# Every call ends

The write loop has no counter. It ends because every answer ends it, reports some of the bytes that
are left, or is an interruption, of which a sink has no more than its script. The loop is told once
more here as it runs, without a bound on its turns: it finishes exactly where `writeAll` does not
give it up, and as `writeAll` tells. Flushing standard output is such a loop as well. It ends because
a raw write of some bytes takes at least one of them or fails.
-/

namespace Outlet

open WriteCall

variable {σ : Type} [Sink σ]

/-! ## The loop as it runs -/

/-- The write loop comes to an end, turn by turn, whatever the turns use up. -/
inductive Finishes : σ → Parts → Written σ → Prop
  | nothing (sink : σ) : Finishes sink [] ⟨[], .complete, sink⟩
  | zero {sink next : σ} {parts : Parts} (hp : parts ≠ [])
      (hw : Sink.write sink parts = (.accepted 0, next)) :
      Finishes sink parts
        ⟨[⟨Sink.visible sink parts, .accepted 0⟩], .failed (.plain .writeZero), next⟩
  | overrun {sink next : σ} {parts : Parts} {count : Nat} (hp : parts ≠ [])
      (hw : Sink.write sink parts = (.accepted count, next)) (hc : 0 < count)
      (hr : parts.advance? count = none) :
      Finishes sink parts ⟨[⟨Sink.visible sink parts, .accepted count⟩], .overrun, next⟩
  | accepted {sink next : σ} {parts rest : Parts} {count : Nat} {written : Written σ}
      (hp : parts ≠ []) (hw : Sink.write sink parts = (.accepted count, next)) (hc : 0 < count)
      (hr : parts.advance? count = some rest) (later : Finishes next rest written) :
      Finishes sink parts (written.after ⟨Sink.visible sink parts, .accepted count⟩)
  | interrupted {sink next : σ} {parts : Parts} {error : IoError} {written : Written σ}
      (hp : parts ≠ []) (hw : Sink.write sink parts = (.failed error, next))
      (hk : error.kind = .interrupted) (later : Finishes next parts written) :
      Finishes sink parts (written.after ⟨Sink.visible sink parts, .failed error⟩)
  | failed {sink next : σ} {parts : Parts} {error : IoError} (hp : parts ≠ [])
      (hw : Sink.write sink parts = (.failed error, next)) (hk : error.kind ≠ .interrupted) :
      Finishes sink parts ⟨[⟨Sink.visible sink parts, .failed error⟩], .failed error, next⟩

theorem Finishes.eq_writeAll {sink : σ} {parts : Parts} {written : Written σ}
    (h : Finishes sink parts written) :
    written = writeAll sink parts ∧ written.ending ≠ .stalled := by
  induction h with
  | nothing sink => exact ⟨(writeAll_nil sink).symm, by simp⟩
  | zero hp hw => exact ⟨(writeAll_of_zero hp hw).symm, by simp⟩
  | overrun hp hw hc hr => exact ⟨(writeAll_of_overrun hp hw hc hr).symm, by simp⟩
  | accepted hp hw hc hr _ ih =>
    obtain ⟨rfl, hend⟩ := ih
    exact ⟨(writeAll_of_accepted hp hw hc hr).symm, hend⟩
  | @interrupted sink next parts error _ hp hw hk _ ih =>
    obtain ⟨rfl, hend⟩ := ih
    have hpatience := Sink.patience_lt_or_eq sink parts error (congrArg Prod.fst hw) hk
    rw [hw] at hpatience
    rcases hpatience with hless | rfl
    · exact ⟨(writeAll_of_interrupted hp hw hk hless).symm, hend⟩
    · -- the same turn is made for ever
      rw [writeAll_of_stalled hp hw hk (Nat.lt_irrefl _)] at hend
      exact absurd rfl hend
  | failed hp hw hk => exact ⟨(writeAll_of_failed hp hw hk).symm, by simp⟩

theorem finishes_writeAll {sink : σ} {parts : Parts}
    (h : (writeAll sink parts).ending ≠ .stalled) :
    Finishes sink parts (writeAll sink parts) := by
  fun_induction writeAll sink parts with
  | case1 sink => exact .nothing sink
  | case2 sink parts hp call next ha => simpa [call, ha] using Finishes.zero hp (Prod.ext ha rfl)
  | case3 sink parts hp call next count ha hr =>
    simpa [call, ha] using Finishes.overrun hp (Prod.ext ha rfl) (Nat.succ_pos count) hr
  | case4 sink parts hp call next count ha rest hr ih =>
    simpa [call, ha] using
      Finishes.accepted hp (Prod.ext ha rfl) (Nat.succ_pos count) hr (ih h)
  | case5 sink parts hp call next error ha hi hpat ih =>
    simpa [call, ha] using Finishes.interrupted hp (Prod.ext ha rfl) hi (ih h)
  | case6 sink parts hp call next error ha hi hpat => exact absurd rfl h
  | case7 sink parts hp call next error ha hi =>
    simpa [call, ha] using Finishes.failed hp (Prod.ext ha rfl) hi

/-- Where the loop is not given up, it comes to one end. -/
theorem finishes_iff {sink : σ} {parts : Parts} (h : (writeAll sink parts).ending ≠ .stalled)
    (written : Written σ) : Finishes sink parts written ↔ written = writeAll sink parts := by
  constructor
  · intro hw
    exact hw.eq_writeAll.1
  · rintro rfl
    exact finishes_writeAll h

/-! ## The turns of the loop, counted -/

namespace WriteCall

/-- How many of some writes were interrupted. -/
def interruptions (calls : List WriteCall) : Nat := calls.countP interrupted

theorem interruptions_cons (call : WriteCall) (rest : List WriteCall) :
    interruptions (call :: rest) = interruptions rest + if call.interrupted then 1 else 0 :=
  List.countP_cons

theorem interruptions_append (first second : List WriteCall) :
    interruptions (first ++ second) = interruptions first + interruptions second :=
  List.countP_append

theorem interruptions_eq_zero {calls : List WriteCall}
    (h : ∀ call ∈ calls, call.interrupted = false) : interruptions calls = 0 := by
  rw [interruptions, List.countP_eq_zero]
  intro call hcall
  rw [h call hcall]
  decide

end WriteCall

/-- The loop writes no more often than there are bytes and interruptions. -/
theorem length_calls_writeAll_le (sink : σ) {parts : Parts} (ht : parts.Trimmed) :
    (writeAll sink parts).calls.length ≤
      parts.size + interruptions (writeAll sink parts).calls := by
  fun_induction writeAll sink parts with
  | case1 => exact Nat.zero_le _
  | case2 sink parts hp | case3 sink parts hp | case6 sink parts hp | case7 sink parts hp =>
    -- The last write is made because some byte is left, and that byte stands for it.
    exact Nat.le_trans (ht.size_pos hp) (Nat.le_add_right _ _)
  | case4 sink parts hp call next count ha rest hr ih =>
    have hrest := ih (Parts.trimmed_advance? hr)
    have hsize := Parts.size_advance? hr
    have hle := Parts.le_size_of_advance? hr
    simp only [Written.after, List.length_cons, interruptions_cons]
    omega
  | case5 sink parts hp call next error ha hi hpat ih =>
    have hcall : call.interrupted := by simp [interrupted, call, ha, hi]
    have hrest := ih ht
    simp only [Written.after, List.length_cons, interruptions_cons, hcall, if_true]
    omega

/-- What every write adds at most one to, the loop adds at most the number of its writes to. -/
theorem writeAll_adds_le (weight : σ → Nat)
    (hw : ∀ sink parts, weight (Sink.write sink parts).2 ≤ weight sink + 1) (sink : σ)
    (parts : Parts) :
    weight (writeAll sink parts).sink ≤ weight sink + (writeAll sink parts).calls.length := by
  fun_induction writeAll sink parts with
  | case1 => exact Nat.le_refl _
  | case4 sink parts hp call next _ _ _ _ ih | case5 sink parts hp call next _ _ _ _ ih =>
    have hnext : weight next ≤ weight sink + 1 := hw sink parts
    simp only [Written.after, List.length_cons]
    omega
  | case2 sink parts | case3 sink parts | case6 sink parts | case7 sink parts =>
    exact hw sink parts

/-! ## Scripted sinks -/

namespace ScriptedSink

variable {sink : ScriptedSink}

/-- Every interruption is an entry of the script. -/
theorem interruptions_writeAll (hp : sink.Patient) (parts : Parts) :
    interruptions (writeAll sink parts).calls + (writeAll sink parts).sink.writes.length ≤
      sink.writes.length := by
  have htail (sink : ScriptedSink) (parts : Parts) :
      (Sink.write sink parts).2.writes.length ≤ sink.writes.length := by
    change (sink.write parts).2.writes.length ≤ _
    rw [writes_write, List.length_tail]
    exact Nat.sub_le _ _
  fun_induction writeAll sink parts with
  | case1 => exact Nat.le_of_eq (Nat.zero_add _)
  | case2 sink parts hne call next ha | case3 sink parts hne call next count ha hr
  | case7 sink parts hne call next error ha hi =>
    rw [interruptions_eq_zero (by simp [interrupted, call, *]), Nat.zero_add]
    exact htail sink parts
  | case4 sink parts hne call next count ha rest hr ih =>
    have hcall : call.interrupted = false := by simp [interrupted, call, ha]
    have hnext : next.writes.length ≤ sink.writes.length := htail sink parts
    have hrest := ih (hp.write parts)
    simp only [Written.after, interruptions_cons, hcall, Bool.false_eq_true, if_false]
    omega
  | case5 sink parts hne call next error ha hi hpat ih =>
    have hcall : call.interrupted := by simp [interrupted, call, ha, hi]
    have hnext : next.writes.length < sink.writes.length := hp.patience_lt ha hi
    have hrest := ih (hp.write parts)
    simp only [Written.after, interruptions_cons, hcall, if_true]
    omega
  | case6 sink parts hne call next error ha hi hpat => exact absurd (hp.patience_lt ha hi) hpat

theorem writes_deliver (sink : ScriptedSink) (message : Message) :
    (deliver sink message).sink.writes = (writeAll sink message.parts.dropEmpty).sink.writes := by
  rw [deliver, deliverParts]
  split
  · rfl
  · rfl
  · exact flush_keeps fun _ _ _ => rfl
  · exact flush_keeps fun _ _ _ => rfl

theorem answer_step_ne_stalled (hp : sink.Patient) (config : Config) (next : Step) :
    (step config sink next).1.answer ≠ .stalled := by
  cases next with
  | poke bytes => simp [step]
  | call form message =>
    have hend := hp.ending_ne_stalled message.parts.dropEmpty
    simp only [step, deliver, deliverParts]
    cases h : (writeAll sink message.parts.dropEmpty).ending with
    | stalled => exact absurd h hend
    | complete | failed | overrun => simp

theorem length_calls_step_le (config : Config) (sink : ScriptedSink) (next : Step) :
    (step config sink next).1.calls.length ≤
      next.text.length + interruptions (step config sink next).1.calls := by
  cases next with
  | poke bytes => exact Nat.zero_le _
  | call form message =>
    have hle := length_calls_writeAll_le sink (Parts.trimmed_dropEmpty message.parts)
    rw [calls_step, calls_deliver]
    rwa [Parts.size_dropEmpty] at hle

theorem interruptions_step (hp : sink.Patient) (config : Config) (next : Step) :
    interruptions (step config sink next).1.calls + (step config sink next).2.writes.length ≤
      sink.writes.length := by
  cases next with
  | poke bytes => exact Nat.le_of_eq (Nat.zero_add _)
  | call form message =>
    have hle := interruptions_writeAll hp message.parts.dropEmpty
    rwa [calls_step, snd_step, calls_deliver, writes_deliver]

theorem interruptions_run (hp : sink.Patient) (config : Config) (steps : List Step) :
    interruptions ((run config sink steps).1.flatMap Report.calls) +
        (run config sink steps).2.writes.length ≤ sink.writes.length := by
  induction steps generalizing sink with
  | nil => exact Nat.le_of_eq (Nat.zero_add _)
  | cons first rest ih =>
    have hfirst := interruptions_step hp config first
    have hrest := ih (hp.step config first)
    simp only [run, Session.run_cons, List.flatMap_cons, interruptions_append] at hrest ⊢
    omega

end ScriptedSink

/-! ## Standard output -/

namespace Stdout

variable {stdout : Stdout} {message : Message}

/-- A flush comes to an end, raw write by raw write, whatever they take. -/
inductive Drains : Stdout → List WriteCall → FlushAnswer × Stdout → Prop
  | nothing {stdout : Stdout} (hh : stdout.held = []) : Drains stdout [] (.done, stdout)
  | accepted {stdout : Stdout} {next : Descriptor} {count : Nat} {calls : List WriteCall}
      {result : FlushAnswer × Stdout} (hh : stdout.held ≠ [])
      (hw : stdout.descriptor.write [stdout.held] = (.accepted count, next))
      (later : Drains ⟨next, stdout.held.drop count⟩ calls result) :
      Drains stdout (⟨[stdout.held], .accepted count⟩ :: calls) result
  | dropped {stdout : Stdout} {next : Descriptor} (hh : stdout.held ≠ [])
      (hw : stdout.descriptor.write [stdout.held] = (.failed .badDescriptor, next)) :
      Drains stdout [⟨[stdout.held], .failed .badDescriptor⟩] (.done, ⟨next, []⟩)
  | failed {stdout : Stdout} {next : Descriptor} {error : IoError} (hh : stdout.held ≠ [])
      (hw : stdout.descriptor.write [stdout.held] = (.failed error, next))
      (he : error ≠ .badDescriptor) :
      Drains stdout [⟨[stdout.held], .failed error⟩] (.failed error, ⟨next, stdout.held⟩)

theorem Drains.eq_drain {calls : List WriteCall} {result : FlushAnswer × Stdout}
    (h : Drains stdout calls result) : calls = stdout.drainCalls ∧ result = stdout.drain := by
  induction h with
  | nothing hh => exact ⟨(drainCalls_of_held_nil hh).symm, (drain_of_held_nil hh).symm⟩
  | accepted hh hw _ ih =>
    obtain ⟨rfl, rfl⟩ := ih
    have hnext := drainCalls_of_accepted hh (congrArg Prod.fst hw)
    rw [hw] at hnext
    exact ⟨hnext.symm, (drain_of_accepted hh hw).symm⟩
  | dropped hh hw =>
    refine ⟨(drainCalls_of_failed hh (congrArg Prod.fst hw)).symm, ?_⟩
    rw [drain_of_failed hh hw, if_pos rfl]
  | failed hh hw he =>
    refine ⟨(drainCalls_of_failed hh (congrArg Prod.fst hw)).symm, ?_⟩
    rw [drain_of_failed hh hw, if_neg he]

theorem drains (stdout : Stdout) : Drains stdout stdout.drainCalls stdout.drain := by
  change Drains stdout stdout.drained.calls (stdout.drained.answer, stdout.drained.stdout)
  fun_induction drained stdout with
  | case1 stdout hh => exact .nothing hh
  | case2 stdout hh call next count ha ih =>
    have hcall : call = ⟨[stdout.held], .accepted count⟩ := congrArg (WriteCall.mk _) ha
    rw [hcall]
    exact .accepted hh (Prod.ext ha rfl) ih
  | case3 stdout hh call next ha =>
    have hcall : call = ⟨[stdout.held], .failed .badDescriptor⟩ := congrArg (WriteCall.mk _) ha
    rw [hcall]
    exact .dropped hh (Prod.ext ha rfl)
  | case4 stdout hh call next error ha he =>
    have hcall : call = ⟨[stdout.held], .failed error⟩ := congrArg (WriteCall.mk _) ha
    rw [hcall]
    exact .failed hh (Prod.ext ha rfl) he

/-- A raw write of some bytes takes one or more of them, or fails for good. -/
theorem raw_write_cases (descriptor : Descriptor) {parts : Parts} (hp : 0 < parts.size) :
    (∃ count, (descriptor.write parts).1 = .accepted count ∧ 0 < count ∧ count ≤ parts.size) ∨
      ∃ error, (descriptor.write parts).1 = .failed error ∧ error.kind ≠ .interrupted := by
  cases ha : (descriptor.write parts).1 with
  | accepted count =>
    exact .inl ⟨count, rfl, Descriptor.accepted_pos ha hp, Descriptor.accepted_le_size ha⟩
  | failed error => exact .inr ⟨error, rfl, Descriptor.kind_write_ne_interrupted ha⟩

theorem taken_off_held {count : Nat} (hh : stdout.held ≠ [])
    (ha : (stdout.descriptor.write [stdout.held]).1 = .accepted count) :
    (stdout.held.drop count).length < stdout.held.length := by
  have hl := List.length_pos_iff.mpr hh
  have hpos := Descriptor.accepted_pos ha (by simpa using hl)
  rw [List.length_drop]
  omega

/-- A flush makes no more raw writes than it takes off what is held, but for one that fails. -/
theorem length_drainCalls_add_le (stdout : Stdout) :
    stdout.drainCalls.length + stdout.drain.2.held.length ≤ stdout.held.length + 1 := by
  change stdout.drained.calls.length + stdout.drained.stdout.held.length ≤ _
  fun_induction drained stdout with
  | case1 => exact Nat.le_trans (Nat.le_of_eq (Nat.zero_add _)) (Nat.le_succ _)
  | case2 stdout hh call next count ha ih =>
    have hless := taken_off_held hh ha
    rw [Logged.after, List.length_cons, Nat.add_right_comm]
    exact Nat.succ_le_succ (Nat.le_trans ih hless)
  | case3 => exact Nat.le_add_left _ _
  | case4 => exact Nat.le_of_eq (Nat.add_comm _ _)

theorem length_drainCalls_le (stdout : Stdout) :
    stdout.drainCalls.length ≤ stdout.held.length := by
  change stdout.drained.calls.length ≤ _
  fun_induction drained stdout with
  | case1 => exact Nat.zero_le _
  | case2 stdout hh call next count ha ih =>
    exact Nat.succ_le_of_lt (Nat.lt_of_le_of_lt ih (taken_off_held hh ha))
  | case3 stdout hh | case4 stdout hh => exact List.length_pos_iff.mpr hh

/-- A write makes at most one raw write more than it takes off what is held. -/
theorem length_writeCalls_add_le (stdout : Stdout) (parts : Parts) :
    (stdout.writeCalls parts).length + (stdout.write parts).2.held.length ≤
      stdout.held.length + 1 := by
  rcases stdout.write_cases parts with ⟨error, -, hw, hc⟩ | ⟨hd, hw, hc⟩
  · rw [hw, hc]
    exact stdout.length_drainCalls_add_le
  · have hle := stdout.length_drainCalls_le
    rw [hw, hc, held_of_drain_done hd, List.length_append]
    exact Nat.succ_le_succ hle

end Stdout

/-- The raw writes so far, and those that a flush may still make. -/
def Ledger.spent (ledger : Ledger) : Nat := ledger.calls.length + ledger.stdout.held.length

theorem Ledger.spent_write_le (ledger : Ledger) (parts : Parts) :
    (Sink.write ledger parts).2.spent ≤ ledger.spent + 1 := by
  have hle := ledger.stdout.length_writeCalls_add_le parts
  change (ledger.calls ++ ledger.stdout.writeCalls parts).length +
    (ledger.stdout.write parts).2.held.length ≤ _
  rw [List.length_append, spent]
  omega

theorem Ledger.length_calls_flush_le (ledger : Ledger) :
    (Sink.flush ledger).2.calls.length ≤ ledger.spent := by
  have hle := ledger.stdout.length_drainCalls_le
  change (ledger.calls ++ ledger.stdout.drainCalls).length ≤ _
  rw [List.length_append, spent]
  omega

namespace Stdout

/-- The raw writes in the course of a call. -/
def rawCalls (stdout : Stdout) (message : Message) : List WriteCall :=
  (deliver (Ledger.mk stdout []) message).sink.calls

theorem interruptions_writeAll (stdout : Stdout) (parts : Parts) :
    interruptions (writeAll stdout parts).calls = 0 := by
  apply interruptions_eq_zero
  refine writeAll_calls (fun _ : Stdout => True) (fun _ _ h => h) ?_ trivial parts
  intro stdout parts _
  cases ha : (Sink.write stdout parts).1 with
  | accepted count => rfl
  | failed error => exact decide_eq_false (kind_write_ne_interrupted ha)

theorem length_calls_deliver_le (stdout : Stdout) (message : Message) :
    (deliver stdout message).calls.length ≤ message.text.length := by
  have hle := length_calls_writeAll_le stdout (Parts.trimmed_dropEmpty message.parts)
  rw [interruptions_writeAll, Nat.add_zero, Parts.size_dropEmpty] at hle
  rwa [calls_deliver]

/-- A call makes no more raw writes than there are bytes held and bytes to write. -/
theorem length_rawCalls_le (stdout : Stdout) (message : Message) :
    (stdout.rawCalls message).length ≤ stdout.held.length + message.text.length := by
  have hcalls := length_calls_deliver_le stdout message
  rw [← calls_deliver_ledger, calls_deliver] at hcalls
  have hspent := writeAll_adds_le Ledger.spent Ledger.spent_write_le (Ledger.mk stdout [])
    message.parts.dropEmpty
  have hstart : (Ledger.mk stdout []).spent = stdout.held.length := Nat.zero_add _
  have hlast : (stdout.rawCalls message).length ≤
      (writeAll (Ledger.mk stdout []) message.parts.dropEmpty).sink.spent := by
    rw [rawCalls, deliver, deliverParts]
    split
    · exact Nat.le_add_right _ _
    · exact Nat.le_add_right _ _
    · exact Ledger.length_calls_flush_le _
    · exact Ledger.length_calls_flush_le _
  omega

end Stdout

/-! ## All calls -/

/-- On a patient sink the loop over any parts comes to one end: the text is written, a write fails,
or the sink reports more than is left. There are no more writes than bytes and interruptions, and no
more interruptions in a session than entries of the script. On standard output nothing is
interrupted, a flush comes to one end, and the raw writes of a call are no more than the bytes that
were held and those of the text. -/
theorem calls_finish {sink : ScriptedSink} (hp : sink.Patient) (config : Config) :
    (∀ parts : Parts,
        let written := writeAll sink parts.dropEmpty
        (∀ other, Finishes sink parts.dropEmpty other ↔ other = written) ∧
          written.calls.length ≤ parts.size + interruptions written.calls ∧
          interruptions written.calls + written.sink.writes.length ≤ sink.writes.length) ∧
      (∀ steps : List ScriptedSink.Step,
        let reports := (ScriptedSink.run config sink steps).1
        List.Forall₂
            (fun next report => report.answer ≠ .stalled ∧
              report.calls.length ≤ next.text.length + interruptions report.calls)
            steps reports ∧
          interruptions (reports.flatMap ScriptedSink.Report.calls) ≤ sink.writes.length ∧
          ∀ before form message after, steps = before ++ .call form message :: after →
            ∃ written,
              Finishes (ScriptedSink.run config sink before).2 message.parts.dropEmpty written ∧
              reports[before.length]?.map ScriptedSink.Report.calls = some written.calls) ∧
      ∀ stdout : Stdout,
        (∀ parts : Parts, 0 < parts.size →
          (∃ count, (stdout.descriptor.write parts).1 = .accepted count ∧
              0 < count ∧ count ≤ parts.size) ∨
            ∃ error, (stdout.descriptor.write parts).1 = .failed error ∧
              error.kind ≠ .interrupted) ∧
          (∀ calls result, stdout.Drains calls result ↔
            calls = stdout.drainCalls ∧ result = stdout.drain) ∧
          stdout.drainCalls.length ≤ stdout.held.length ∧
          ∀ message : Message,
            (∀ other, Finishes stdout message.parts.dropEmpty other ↔
                other = writeAll stdout message.parts.dropEmpty) ∧
              (∃ result, (deliver stdout message).outcome = .returned result) ∧
              (deliver stdout message).calls.length ≤ message.text.length ∧
              (stdout.rawCalls message).length ≤ stdout.held.length + message.text.length := by
  refine ⟨?_, ?_, ?_⟩
  · intro parts written
    have hle := length_calls_writeAll_le sink (Parts.trimmed_dropEmpty parts)
    rw [Parts.size_dropEmpty] at hle
    exact ⟨finishes_iff (hp.ending_ne_stalled _), hle, ScriptedSink.interruptions_writeAll hp _⟩
  · intro steps reports
    refine ⟨?_, ?_, ?_⟩
    · refine Session.run_forall₂ ScriptedSink.Patient ?_ hp steps
      intro state next hs
      exact ⟨⟨ScriptedSink.answer_step_ne_stalled hs config next,
        ScriptedSink.length_calls_step_le config state next⟩, hs.step config next⟩
    · exact Nat.le_trans (Nat.le_add_right _ _) (ScriptedSink.interruptions_run hp config steps)
    · rintro before form message after rfl
      have hstate := hp.run config before
      refine ⟨_, finishes_writeAll (hstate.ending_ne_stalled message.parts.dropEmpty), ?_⟩
      have hreport : reports[before.length]? = _ := Session.run_getElem? _ _ before _ after
      rw [hreport, Option.map_some, ScriptedSink.calls_step, calls_deliver]
      rfl
  · intro stdout
    refine ⟨fun parts => Stdout.raw_write_cases _, ?_, stdout.length_drainCalls_le, ?_⟩
    · intro calls result
      constructor
      · exact Stdout.Drains.eq_drain
      · rintro ⟨rfl, rfl⟩
        exact stdout.drains
    · intro message
      have hend : (writeAll stdout message.parts.dropEmpty).ending ≠ .stalled := by
        rcases writeAll_ending_of_reliable stdout message.parts.dropEmpty with h | ⟨error, h⟩ <;>
          simp [h]
      exact ⟨finishes_iff hend, exists_deliver_outcome stdout message,
        stdout.length_calls_deliver_le message, stdout.length_rawCalls_le message⟩

/-- Two interruptions, a write of one byte, and a report of more bytes than are left. -/
theorem calls_finish_overrunning :
    let error : IoError := .system 4
    let sink : ScriptedSink :=
      ⟨false, [.fail error, .accept 1, .fail error, .report 9], [], none, none, none, [], []⟩
    let parts : Parts := [[], [97, 98], [10]]
    let calls : List WriteCall :=
      [⟨[[97, 98]], .failed error⟩, ⟨[[97, 98]], .accepted 1⟩, ⟨[[98]], .failed error⟩,
        ⟨[[98]], .accepted 9⟩]
    sink.Patient ∧
      writeAll sink parts.dropEmpty =
        ⟨calls, .overrun, ⟨false, [], [], none, none, none, [], [97, 98]⟩⟩ ∧
      calls.length ≤ parts.size + interruptions calls := by
  intro error sink parts calls
  have hp : sink.Patient := by
    intro other he
    cases he
  obtain ⟨hloop, -, -⟩ := calls_finish hp ⟨false⟩
  obtain ⟨hends, hle, -⟩ := hloop parts
  have hwritten := (hends _).mp <|
    .interrupted (by decide) rfl rfl <| .accepted (by decide) rfl (by decide) rfl <|
      .interrupted (by decide) rfl rfl <| .overrun (by decide) rfl (by decide) rfl
  rw [← hwritten] at hle
  exact ⟨hp, hwritten.symm, hle⟩

end Outlet
