import Outlet.Proofs.ExactlyOnce

/-!
# The shape of a delivery

What a sink sees of a call, write by write. Each write is offered what is left of the text behind
the bytes reported so far, in the parts it came in; all writes but the last are interrupted or
report some bytes; and one flush follows, whatever the writes did. The last answer and the flush
decide how the call ends.
-/

namespace Outlet

open WriteCall

/-! ## What is left of some parts -/

/-- What is left of some parts behind their first `n` bytes, if that is any: the end of the part in
which byte `n` lies, and the parts behind it. -/
def Parts.Left (n : Nat) (parts rest : Parts) : Prop :=
  ∃ gone front back later, parts = gone ++ (front ++ back) :: later ∧
    Parts.size gone + front.length = n ∧ back ≠ [] ∧ rest = back :: later

namespace Parts

theorem left_of_advance? {n : Nat} {parts rest : Parts} (h : parts.advance? n = some rest)
    (hr : rest ≠ []) : Left n parts rest := by
  induction parts generalizing n with
  | nil =>
    cases n with
    | zero => exact absurd (Option.some.inj h).symm hr
    | succ n => cases h
  | cons part tail ih =>
    rw [advance?] at h
    split at h
    next hle =>
      obtain ⟨gone, front, back, later, rfl, hsize, hback, hrest⟩ := ih h
      refine ⟨part :: gone, front, back, later, rfl, ?_, hback, hrest⟩
      rw [size_cons]
      omega
    next hlt =>
      obtain rfl := Option.some.inj h
      refine ⟨[], part.take n, part.drop n, tail, ?_, ?_, ?_, rfl⟩
      · rw [List.take_append_drop, List.nil_append]
      · rw [size_nil, List.length_take]
        omega
      · rw [ne_eq, List.drop_eq_nil_iff]
        omega

theorem Left.flatten {n : Nat} {parts rest : Parts} (h : Left n parts rest) :
    rest.flatten = parts.flatten.drop n := by
  obtain ⟨gone, front, back, later, rfl, hsize, -, rfl⟩ := h
  have hn : n = (gone.flatten ++ front).length := by rw [List.length_append, ← hsize, size]
  have hall : (gone ++ (front ++ back) :: later).flatten =
      (gone.flatten ++ front) ++ (back :: later).flatten := by simp
  rw [hall, hn, List.drop_left]

/-- There is something left only behind fewer bytes than there are. -/
theorem Left.lt_size {n : Nat} {parts rest : Parts} (h : Left n parts rest) : n < parts.size := by
  obtain ⟨gone, front, back, later, rfl, hsize, hback, -⟩ := h
  have hpos := List.length_pos_iff.mpr hback
  simp only [size, List.flatten_append, List.flatten_cons, List.length_append] at hsize ⊢
  omega

end Parts

variable {σ : Type} [Sink σ]

/-! ## The turns of the loop -/

/-- The loop goes on behind a write that was interrupted or reported some bytes. -/
def WriteCall.GoesOn (call : WriteCall) : Prop :=
  match call.answer with
  | .accepted count => 0 < count
  | .failed error => error.kind = .interrupted

theorem calls_writeAll_eq_nil_iff (sink : σ) (parts : Parts) :
    (writeAll sink parts).calls = [] ↔ parts = [] := by
  constructor
  · intro h
    fun_induction writeAll sink parts with
    | case1 => rfl
    | case2 | case3 | case4 | case5 | case6 | case7 => cases h
  · rintro rfl
    rw [writeAll_nil]

/-- A write that the loop over some parts makes behind others: to what is left of the parts behind
the bytes reported before, if that is any. -/
def Turn (kept : σ → Prop) (parts : Parts) (before : List WriteCall) (call : WriteCall) : Prop :=
  ∃ state rest, kept state ∧ parts.advance? (reportedBy before) = some rest ∧ rest ≠ [] ∧
    call = ⟨Sink.visible state rest, (Sink.write state rest).1⟩

section
variable {kept : σ → Prop} {sink : σ} {parts rest : Parts} {before after : List WriteCall}
  {earlier call : WriteCall}

theorem Turn.first (hs : kept sink) (ht : parts.Trimmed) (hp : parts ≠ []) :
    Turn kept parts [] ⟨Sink.visible sink parts, (Sink.write sink parts).1⟩ := by
  refine ⟨sink, parts, hs, ?_, hp, rfl⟩
  rw [reportedBy_nil, Parts.advance?_zero, ht.dropEmpty]

/-- A write to what is left behind another one is a write behind that one. -/
theorem Turn.cons (h : Turn kept rest before call)
    (hr : parts.advance? earlier.reported = some rest) :
    Turn kept parts (earlier :: before) call := by
  obtain ⟨state, last, hs, hlast, hne, hcall⟩ := h
  refine ⟨state, last, hs, ?_, hne, hcall⟩
  rw [reportedBy_cons, ← Parts.advance?_advance? hr, hlast]

/-- Empty parts in front are no part of any turn. -/
theorem Turn.of_dropEmpty (h : Turn kept parts.dropEmpty before call) :
    Turn kept parts before call := by
  obtain ⟨state, last, hs, hlast, hne, hcall⟩ := h
  refine ⟨state, last, hs, ?_, hne, hcall⟩
  rw [← hlast, Parts.advance?_advance? (Parts.advance?_zero parts), Nat.zero_add]

/-- A first write to some parts is a turn, so turns are left to show behind it. -/
theorem Turn.of_cons {more : List WriteCall} (hs : kept sink) (ht : parts.Trimmed) (hp : parts ≠ [])
    (hmore : ∀ before, more = before ++ call :: after →
      Turn kept parts (⟨Sink.visible sink parts, (Sink.write sink parts).1⟩ :: before) call) :
    ∀ before, ⟨Sink.visible sink parts, (Sink.write sink parts).1⟩ :: more =
      before ++ call :: after → Turn kept parts before call := by
  intro before h
  cases before with
  | nil =>
    obtain ⟨rfl, -⟩ := List.cons_eq_cons.mp h
    exact .first hs ht hp
  | cons earlier before =>
    obtain ⟨rfl, hrest⟩ := List.cons_eq_cons.mp h
    exact hmore before hrest

theorem writeAll_turn (hk : ∀ sink parts, kept sink → kept (Sink.write sink parts).2)
    (hs : kept sink) (ht : parts.Trimmed) :
    ∀ before, (writeAll sink parts).calls = before ++ call :: after →
      Turn kept parts before call := by
  fun_induction writeAll sink parts with
  | case1 => simp
  | case4 sink parts hp first next count ha rest hr ih =>
    have hadvance : parts.advance? first.reported = some rest := by simpa [first, ha] using hr
    have hlater := ih (hk sink parts hs) (Parts.trimmed_advance? hr)
    exact .of_cons hs ht hp fun before h => (hlater before h).cons hadvance
  | case5 sink parts hp first next error ha hi hpat ih =>
    have hadvance : parts.advance? first.reported = some parts := by
      simp [first, ha, Parts.advance?_zero, ht.dropEmpty]
    have hlater := ih (hk sink parts hs) ht
    exact .of_cons hs ht hp fun before h => (hlater before h).cons hadvance
  | case2 sink parts hp | case3 sink parts hp | case6 sink parts hp | case7 sink parts hp =>
    exact .of_cons hs ht hp (by simp)

/-- The loop ends with the first write behind which it does not go on. -/
theorem goesOn_of_calls_writeAll {next : WriteCall} :
    ∀ before, (writeAll sink parts).calls = before ++ call :: next :: after → call.GoesOn := by
  fun_induction writeAll sink parts with
  | case1 => simp
  | case4 sink parts hp first sink' count ha rest hr ih =>
    intro before h
    cases before with
    | nil =>
      obtain ⟨rfl, -⟩ := List.cons_eq_cons.mp h
      simp [GoesOn, first, ha]
    | cons first' before => exact ih before (List.cons_eq_cons.mp h).2
  | case5 sink parts hp first sink' error ha hi hpat ih =>
    intro before h
    cases before with
    | nil =>
      obtain ⟨rfl, -⟩ := List.cons_eq_cons.mp h
      simpa [GoesOn, first, ha] using hi
    | cons first' before => exact ih before (List.cons_eq_cons.mp h).2
  | case2 | case3 | case6 | case7 => simp [List.singleton_eq_append_iff]

end

/-- What the answer to the last write, if there was one, says of how the loop ended. -/
def WriteEnd.Tells (ending : WriteEnd) : Option WriteAnswer → Prop
  | none => ending = .complete
  | some (.accepted 0) => ending = .failed (.plain .writeZero)
  | some (.accepted (_ + 1)) => ending = .complete ∨ ending = .overrun
  | some (.failed error) => ending = .failed error ∨ ending = .stalled

/-- The answer to the last of some writes. -/
def WriteCall.lastAnswer (calls : List WriteCall) : Option WriteAnswer :=
  calls.getLast?.map WriteCall.answer

theorem WriteCall.lastAnswer_cons (call : WriteCall) (calls : List WriteCall) :
    lastAnswer (call :: calls) = some ((lastAnswer calls).getD call.answer) := by
  rw [lastAnswer, lastAnswer, List.getLast?_cons]
  cases calls.getLast? <;> rfl

theorem writeAll_tells (sink : σ) (parts : Parts) :
    (writeAll sink parts).ending.Tells (lastAnswer (writeAll sink parts).calls) := by
  fun_induction writeAll sink parts with
  | case1 => rfl
  | case2 sink parts hp call next ha => simp [lastAnswer, call, ha, WriteEnd.Tells]
  | case3 sink parts hp call next count ha hr => simp [lastAnswer, call, ha, WriteEnd.Tells]
  | case4 sink parts hp call next count ha rest hr ih =>
    rw [Written.after, lastAnswer_cons]
    cases hl : lastAnswer (writeAll next rest).calls with
    | none =>
      rw [hl] at ih
      simpa [call, ha, WriteEnd.Tells] using .inl ih
    | some answer => rwa [hl] at ih
  | case5 sink parts hp call next error ha hi hpat ih =>
    rw [Written.after, lastAnswer_cons]
    cases hl : lastAnswer (writeAll next parts).calls with
    | none =>
      -- There is something left to write, so the interrupted write was not the last.
      have hnone : (writeAll next parts).calls = [] := by simpa [lastAnswer] using hl
      exact absurd ((calls_writeAll_eq_nil_iff next parts).mp hnone) hp
    | some answer => rwa [hl] at ih
  | case6 sink parts hp call next error ha hi hpat => simp [lastAnswer, call, ha, WriteEnd.Tells]
  | case7 sink parts hp call next error ha hi => simp [lastAnswer, call, ha, WriteEnd.Tells]

/-! ## How a call ends -/

/-- The result of a call with a text of some size, by what its writes reported, by the last answer
to them, if there was one, and by the flush. A write that failed or reported nothing decides alone.
-/
def CallResult.Closes (size reported : Nat) (result : CallResult) :
    Option WriteAnswer → FlushAnswer → Prop
  | some (.failed error), _ => result = .failed (.write error.kind error.message)
  | some (.accepted 0), _ => result = .failed (.write .writeZero IoError.Kind.writeZero.text)
  | none, .failed error | some (.accepted (_ + 1)), .failed error =>
    reported = size ∧ result = .failed (.flush error.kind error.message)
  | none, .done | some (.accepted (_ + 1)), .done => reported = size ∧ result = .wrote size

theorem WriteEnd.Tells.closes_of_complete {answer : Option WriteAnswer}
    (h : WriteEnd.complete.Tells answer) (size : Nat) (flush : FlushAnswer) :
    (CallResult.ofEnds size none flush).Closes size size answer flush := by
  match answer, flush with
  | some (.accepted 0), _ => cases h
  | some (.failed _), _ => rcases h with h | h <;> cases h
  | none, .failed _ | none, .done => exact ⟨rfl, rfl⟩
  | some (.accepted (_ + 1)), .failed _ | some (.accepted (_ + 1)), .done => exact ⟨rfl, rfl⟩

theorem WriteEnd.Tells.closes_of_failed {error : IoError} {answer : Option WriteAnswer}
    (h : (WriteEnd.failed error).Tells answer) (size reported : Nat) (flush : FlushAnswer) :
    (CallResult.failed (.ofWrite error)).Closes size reported answer flush := by
  match answer with
  | none => cases h
  | some (.accepted 0) =>
    obtain rfl := WriteEnd.failed.inj h
    rfl
  | some (.accepted (_ + 1)) => rcases h with h | h <;> cases h
  | some (.failed error') =>
    obtain rfl : error = error' := by simpa [WriteEnd.Tells] using h
    rfl

/-- The shape of a call that writes the text of some parts: its writes, each shown what is left of
the text or the first part of it, then the answer to its flush, and its result. -/
structure Shaped (vectored : Bool) (parts : Parts) (calls : List WriteCall) (flush : FlushAnswer)
    (result : CallResult) : Prop where
  silent : calls = [] ↔ parts.flatten = []
  offers : ∀ before call after, calls = before ++ call :: after →
    ∃ part later, Parts.Left (reportedBy before) parts (part :: later) ∧ part ≠ [] ∧
      (part :: later).flatten = parts.flatten.drop (reportedBy before) ∧
      call.offer = if vectored then part :: later else [part]
  goesOn : ∀ before call next after, calls = before ++ call :: next :: after → call.GoesOn
  closes : result.Closes parts.size (reportedBy calls) (lastAnswer calls) flush

/-! ## Scripted sinks that are not interrupted for ever -/

/-- What may be asked of a sink, and what it answers. -/
inductive SinkCall where
  | write (call : WriteCall)
  | flush (answer : FlushAnswer)
  deriving DecidableEq

namespace ScriptedSink

@[simp] theorem vectored_write (sink : ScriptedSink) (parts : Parts) :
    (sink.write parts).2.vectored = sink.vectored := by
  simp only [write, settle]
  split <;> rfl

/-- A turn's write is shown the text from the first byte that has not been reported. -/
theorem offer_of_turn {vectored : Bool} {parts : Parts} {before : List WriteCall} {call : WriteCall}
    (h : Turn (fun sink : ScriptedSink => sink.vectored = vectored) parts before call) :
    ∃ part later, Parts.Left (reportedBy before) parts (part :: later) ∧ part ≠ [] ∧
      (part :: later).flatten = parts.flatten.drop (reportedBy before) ∧
      call.offer = if vectored then part :: later else [part] := by
  obtain ⟨sink, rest, rfl, hr, hne, rfl⟩ := h
  have hleft := Parts.left_of_advance? hr hne
  have htrimmed := Parts.trimmed_advance? hr
  cases rest with
  | nil => exact absurd rfl hne
  | cons part later =>
    refine ⟨part, later, hleft, htrimmed part later rfl, hleft.flatten, ?_⟩
    change sink.visible (part :: later) = _
    rw [visible, htrimmed.dropEmpty]
    rfl

/-- A patient sink that keeps a record of what is asked of it, in order. -/
structure Recorder where
  sink : ScriptedSink
  patient : sink.Patient
  record : List SinkCall

namespace Recorder

instance : Sink Recorder where
  visible recorder := recorder.sink.visible
  write recorder parts :=
    ((recorder.sink.write parts).1,
      ⟨(recorder.sink.write parts).2, recorder.patient.write parts,
        recorder.record ++ [.write ⟨recorder.sink.visible parts, (recorder.sink.write parts).1⟩]⟩)
  flush recorder :=
    (recorder.sink.flush.1,
      ⟨recorder.sink.flush.2, recorder.patient.flush,
        recorder.record ++ [.flush recorder.sink.flush.1]⟩)
  patience recorder := recorder.sink.writes.length
  patience_lt_or_eq recorder _ _ h hi := .inl (recorder.patient.patience_lt h hi)

/-- The record makes no difference to any answer. -/
theorem view_sink : SinkView Recorder.sink :=
  ⟨fun _ _ => rfl, fun _ _ => rfl, fun _ => rfl, fun _ => rfl⟩

theorem record_writeAll (recorder : Recorder) (parts : Parts) :
    (writeAll recorder parts).sink.record =
      recorder.record ++ (writeAll recorder parts).calls.map .write := by
  rw [List.map_eq_flatMap]
  exact writeAll_records (fun _ => True) record (fun call => [.write call]) (fun _ _ h => h)
    (fun _ _ _ => rfl) trivial parts

/-- A delivery is recorded as its writes and its flush, in this order. -/
theorem record_deliver (recorder : Recorder) (message : Message) :
    (deliver recorder message).sink.record = recorder.record ++
      ((deliver recorder.sink message).calls.map .write ++
        (deliver recorder.sink message).flush.toList.map .flush) := by
  have hwritten := record_writeAll recorder message.parts.dropEmpty
  have hflush (sink : Recorder) :
      (Sink.flush sink).2.record = sink.record ++ [.flush (Sink.flush sink).1] := rfl
  rw [view_sink.deliver, deliver, deliverParts]
  split <;> simp [hflush, hwritten]

end Recorder

/-! ## Whole calls -/

theorem shaped_of_closes (sink : ScriptedSink) (parts : Parts) {flush : FlushAnswer}
    {result : CallResult}
    (hc : result.Closes parts.size (reportedBy (writeAll sink parts.dropEmpty).calls)
      (lastAnswer (writeAll sink parts.dropEmpty).calls) flush) :
    Shaped sink.vectored parts (writeAll sink parts.dropEmpty).calls flush result where
  silent := by rw [calls_writeAll_eq_nil_iff, Parts.dropEmpty_eq_nil_iff]
  offers before call after h := by
    have hkeeps : ∀ (next : ScriptedSink) (offer : Parts), next.vectored = sink.vectored →
        (next.write offer).2.vectored = sink.vectored := fun next offer hn =>
      (next.vectored_write offer).trans hn
    have hturn := writeAll_turn hkeeps rfl (Parts.trimmed_dropEmpty parts) before h
    exact offer_of_turn hturn.of_dropEmpty
  goesOn before _ _ _ h := goesOn_of_calls_writeAll before h
  closes := hc

theorem deliver_shaped {sink : ScriptedSink} (hp : sink.Patient) {message : Message}
    (ho : (deliver sink message).outcome ≠ .overrun) :
    ∃ flush result, (deliver sink message).outcome = .returned result ∧
      (deliver sink message).flush = some flush ∧
      Shaped sink.vectored message.parts (deliver sink message).calls flush result := by
  have hagrees := writeAll_agrees sink (Parts.trimmed_dropEmpty message.parts)
  rw [Parts.size_dropEmpty] at hagrees
  have htells := writeAll_tells sink message.parts.dropEmpty
  have hstalled := hp.ending_ne_stalled message.parts.dropEmpty
  rw [calls_deliver]
  cases he : (writeAll sink message.parts.dropEmpty).ending with
  | complete =>
    rw [he] at hagrees htells
    rw [deliver_of_complete he]
    have hcloses := htells.closes_of_complete message.parts.size
      (Sink.flush (writeAll sink message.parts.dropEmpty).sink).1
    exact ⟨_, _, rfl, rfl, shaped_of_closes sink message.parts (hagrees.symm ▸ hcloses)⟩
  | failed error =>
    rw [he] at htells
    rw [deliver_of_failed he]
    exact ⟨_, _, rfl, rfl, shaped_of_closes sink message.parts (htells.closes_of_failed _ _ _)⟩
  | overrun => exact absurd (by rw [deliver, deliverParts, he]) ho
  | stalled => exact absurd he hstalled

/-- What a patient sink sees of a call that does not overrun: writes of what is left of the text, as
long as they are interrupted or report some bytes, and then one flush. The last of the writes and
the flush decide the answer. -/
theorem call_shape {sink : ScriptedSink} (hp : sink.Patient) (config : Config) (form : Form)
    (message : Message) (ho : (step config sink (.call form message)).1.answer ≠ .overrun) :
    ∃ flush result,
      (step config sink (.call form message)).1.flush = some flush ∧
      (step config sink (.call form message)).1.answer = .reply (form.reply result) ∧
      Shaped sink.vectored message.parts (step config sink (.call form message)).1.calls flush
        result ∧
      ∀ record, (deliver (⟨sink, hp, record⟩ : Recorder) message).sink.record =
        record ++ ((step config sink (.call form message)).1.calls.map .write ++
          [.flush flush]) := by
  have houtcome : (deliver sink message).outcome ≠ .overrun := by
    intro h
    simp [step, h] at ho
  obtain ⟨flush, result, hr, hf, hshaped⟩ := deliver_shaped hp houtcome
  obtain ⟨-, hcalls, hflush, hanswer⟩ := step_call hr config form
  refine ⟨flush, result, hflush.trans hf, hanswer, hcalls ▸ hshaped, ?_⟩
  intro record
  rw [Recorder.record_deliver, hcalls, hf]
  rfl

/-- A sink without parts that is interrupted, reports the newline with the end of the message though
it is shown only that, and is interrupted again at the flush. -/
theorem call_shape_past_the_offer :
    let sink : ScriptedSink :=
      ⟨false, [.accept 2, .fail (.plain .interrupted), .report 2], [.fail (.plain .interrupted)],
        none, none, some (.plain .brokenPipe), [], []⟩
    let report := (step ⟨true⟩ sink (.call .typed (.bytes .line [97, 98, 99]))).1
    sink.Patient ∧ report.answer ≠ .overrun ∧
      report.calls.map WriteCall.offer = [[[97, 98, 99]], [[99]], [[99]]] ∧
      ∃ flush result, report.flush = some flush ∧ report.answer = .reply (.result result) ∧
        Shaped false [[97, 98, 99], [10]] report.calls flush result ∧
        result = .failed (.flush .interrupted "operation interrupted") := by
  intro sink report
  have hp : sink.Patient := by
    intro error he
    cases he
    decide
  let cut : ScriptedSink := { sink with writes := sink.writes.tail, pending := [97, 98] }
  let resumed : ScriptedSink := { cut with writes := [.report 2] }
  let done : ScriptedSink := { resumed with writes := [], pending := [97, 98, 99] }
  have hcut : Sink.write sink [[97, 98, 99], [10]] = (.accepted 2, cut) := rfl
  have hinterrupted :
      Sink.write cut [[99], [10]] = (.failed (.plain .interrupted), resumed) := rfl
  have hdone : Sink.write resumed [[99], [10]] = (.accepted 2, done) := rfl
  have htwo : Parts.advance? 2 [[97, 98, 99], [10]] = some [[99], [10]] := rfl
  have hall : Parts.advance? 2 [[99], [10]] = some [] := rfl
  have hwritten : writeAll sink (Message.parts (.bytes .line [97, 98, 99])).dropEmpty =
      ⟨[⟨[[97, 98, 99]], .accepted 2⟩, ⟨[[99]], .failed (.plain .interrupted)⟩,
        ⟨[[99]], .accepted 2⟩], .complete, done⟩ := by
    change writeAll sink [[97, 98, 99], [10]] = _
    rw [writeAll_of_accepted (by decide) hcut (by decide) htwo,
      writeAll_of_interrupted (by decide) hinterrupted rfl (by decide),
      writeAll_of_accepted (by decide) hdone (by decide) hall, writeAll_nil]
    rfl
  have hdelivery := deliver_of_complete (congrArg Written.ending hwritten)
  rw [hwritten] at hdelivery
  have hreport : report = ⟨.reply (.result (.failed (.flush .interrupted "operation interrupted"))),
      [⟨[[97, 98, 99]], .accepted 2⟩, ⟨[[99]], .failed (.plain .interrupted)⟩,
        ⟨[[99]], .accepted 2⟩], some (.failed (.plain .interrupted)), [], [97, 98, 99], ""⟩ := by
    simp only [report, step, hdelivery]
    rfl
  have ho : report.answer ≠ .overrun := by
    rw [hreport]
    decide
  obtain ⟨flush, result, hf, ha, hshaped, -⟩ := call_shape hp ⟨true⟩ .typed _ ho
  refine ⟨hp, ho, by rw [hreport]; rfl, flush, result, hf, ha, hshaped, ?_⟩
  have hresult : report.answer = .reply (.result result) := ha
  rw [hreport] at hresult
  simpa using hresult.symm

end ScriptedSink

end Outlet
