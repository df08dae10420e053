import Outlet.Proofs.WriteLoop
import Outlet.Sink.Session

/-!
# Every byte once and in order

A session on a scripted sink puts one piece of each step's text into the sink: the whole of it if
the call succeeds or only its flush fails, and less if a write fails. The pieces follow each other
in the order of the steps, and what has been moved out is never touched again. The writes must
report what they take, and the sink must not be interrupted for ever once it is full; which writes
are cut short, fail or are interrupted is left open.
-/

namespace Outlet

open WriteCall

namespace ScriptedSink

/-! ## One write -/

theorem flatten_visible (sink : ScriptedSink) (parts : Parts) :
    (sink.visible parts).flatten <+: parts.flatten := by
  unfold visible
  split
  · exact List.prefix_rfl
  · rw [← Parts.flatten_dropEmpty parts]
    refine ⟨(parts.dropEmpty.drop 1).flatten, ?_⟩
    rw [← List.flatten_append, List.take_append_drop]

@[simp] theorem onFull_write (sink : ScriptedSink) (parts : Parts) :
    (sink.write parts).2.onFull = sink.onFull := by
  simp only [write, settle]
  split <;> rfl

@[simp] theorem writes_write (sink : ScriptedSink) (parts : Parts) :
    (sink.write parts).2.writes = sink.writes.tail := by
  simp only [write, settle]
  split <;> rfl

theorem pending_write (sink : ScriptedSink) (parts : Parts) :
    (sink.write parts).2.pending =
      sink.pending ++ WriteCall.taken ⟨sink.visible parts, (sink.write parts).1⟩ := by
  cases ha : (sink.write parts).1 with
  | accepted count =>
    have ht := taken_write_accepted ha
    rw [ScriptedSink.taken, ScriptedSink.taken, out_write, List.append_assoc] at ht
    exact List.append_cancel_left ht
  | failed error =>
    have ht := taken_write_failed ha
    rw [ScriptedSink.taken, ScriptedSink.taken, out_write] at ht
    rw [taken_failed, List.append_nil]
    exact List.append_cancel_left ht

/-- A sink that is not interrupted for ever: what it fails with once it is full is another error. -/
def Patient (sink : ScriptedSink) : Prop :=
  ∀ error, sink.onFull = some error → error.kind ≠ .interrupted

theorem Patient.write {sink : ScriptedSink} (hp : sink.Patient) (parts : Parts) :
    (sink.write parts).2.Patient := by
  rw [Patient, onFull_write]
  exact hp

theorem Patient.usualAnswer {sink : ScriptedSink} (hp : sink.Patient) {offer : Bytes}
    {error : IoError} (h : sink.usualAnswer offer = .failed error) : error.kind ≠ .interrupted := by
  simp only [ScriptedSink.usualAnswer] at h
  split at h
  next hfull =>
    obtain rfl := WriteAnswer.failed.inj h
    exact hp _ hfull
  next => cases h
  next => cases h

/-- An interruption uses up an entry of the script. -/
theorem Patient.patience_lt {sink : ScriptedSink} (hp : sink.Patient) {parts : Parts}
    {error : IoError} (h : (sink.write parts).1 = .failed error) (hi : error.kind = .interrupted) :
    (sink.write parts).2.writes.length < sink.writes.length := by
  rw [writes_write]
  cases hw : sink.writes with
  | nil =>
    simp only [ScriptedSink.write, hw, List.headD_nil, answer] at h
    exact absurd hi (hp.usualAnswer h)
  | cons entry rest => simp

/-! ## One call -/

theorem pending_writeAll (sink : ScriptedSink) (parts : Parts) :
    (writeAll sink parts).sink.pending = sink.pending ++ takenBy (writeAll sink parts).calls :=
  writeAll_collects (fun _ => True) pending (fun _ _ h => h) (fun s p _ => pending_write s p)
    trivial parts

theorem out_writeAll (sink : ScriptedSink) (parts : Parts) :
    (writeAll sink parts).sink.out = sink.out :=
  writeAll_keeps (fun s => s.out = sink.out) (fun s p h => (out_write s p).trans h) rfl parts

/-- What becomes of the bytes that are added to a sink: they go behind what is pending, and a flush
that succeeds moves all of that out. -/
structure Moves (sink next : ScriptedSink) (flush : Option FlushAnswer) (added : Bytes) : Prop where
  moved : flush = some .done →
    next.out = sink.out ++ (sink.pending ++ added) ∧ next.pending = []
  held : flush ≠ some .done → next.out = sink.out ∧ next.pending = sink.pending ++ added

theorem moves_of_unflushed {sink next : ScriptedSink} {added : Bytes} (hout : next.out = sink.out)
    (hpending : next.pending = sink.pending ++ added) : Moves sink next none added := by
  refine ⟨fun h => ?_, fun _ => ⟨hout, hpending⟩⟩
  cases h

theorem moves_flush {sink written : ScriptedSink} {added : Bytes} (hout : written.out = sink.out)
    (hpending : written.pending = sink.pending ++ added) :
    Moves sink written.flush.2 (some written.flush.1) added := by
  rcases written.flush_cases with ⟨hd, ho, hp⟩ | ⟨⟨error, he⟩, ho, hp⟩
  · refine ⟨fun _ => ⟨?_, hp⟩, fun h => absurd (congrArg some hd) h⟩
    rw [ho, ScriptedSink.taken, hout, hpending]
  · refine ⟨fun h => ?_, fun _ => ⟨ho.trans hout, hp.trans hpending⟩⟩
    rw [he] at h
    cases h

theorem moves_deliver (sink : ScriptedSink) (message : Message) :
    Moves sink (deliver sink message).sink (deliver sink message).flush
      (takenBy (deliver sink message).calls) := by
  have hout := out_writeAll sink message.parts.dropEmpty
  have hpending := pending_writeAll sink message.parts.dropEmpty
  rw [calls_deliver, deliver, deliverParts]
  split
  · exact moves_of_unflushed hout hpending
  · exact moves_of_unflushed hout hpending
  · exact moves_flush hout hpending
  · exact moves_flush hout hpending

/-- A flush leaves a sink as it was, but for its script of flushes and where the bytes are. -/
theorem flush_keeps {α : Type} {sink : ScriptedSink} {seen : ScriptedSink → α}
    (h : ∀ flushes out pending, seen { sink with flushes, out, pending } = seen sink) :
    seen sink.flush.2 = seen sink := by
  rw [ScriptedSink.flush]
  split
  · exact h _ _ _
  · exact h _ _ _

theorem Patient.flush {sink : ScriptedSink} (hp : sink.Patient) : sink.flush.2.Patient := by
  have honFull : sink.flush.2.onFull = sink.onFull := flush_keeps fun _ _ _ => rfl
  rw [Patient, honFull]
  exact hp

theorem Patient.deliver {sink : ScriptedSink} (hp : sink.Patient) (message : Message) :
    (deliver sink message).sink.Patient :=
  deliver_keeps Patient (fun _ p h => h.write p) (fun _ h => h.flush) hp message

theorem Patient.ending_ne_stalled {sink : ScriptedSink} (hp : sink.Patient) (parts : Parts) :
    (writeAll sink parts).ending ≠ .stalled :=
  writeAll_ending_ne_stalled Patient (fun _ p h => h.write p) (fun _ _ _ h => h.patience_lt) hp
    parts

end ScriptedSink

/-- What the answer to a call says of the piece of its text that the sink has taken. -/
def CallResult.Covers (piece text : Bytes) : CallResult → Prop
  | .wrote count => piece = text ∧ count = text.length
  | .failed (.flush _ _) => piece = text
  | .failed (.write _ _) => piece ≠ text
  | .failed (.nullMessage _) => False

theorem CallResult.covers_ofEnds (text : Bytes) (flush : FlushAnswer) :
    (CallResult.ofEnds text.length none flush).Covers text text := by
  cases flush with
  | done => exact ⟨rfl, rfl⟩
  | failed error => rfl

namespace ScriptedSink

/-- A loop that ends complete has reported the whole text, and one that fails has not. -/
theorem take_of_agrees {ending : WriteEnd} {text : Bytes} {count : Nat}
    (h : ending.Agrees count text.length) :
    (ending = .complete → text.take count = text) ∧
      ∀ error, ending = .failed error → text.take count ≠ text := by
  constructor
  · rintro rfl
    exact List.take_of_length_le (Nat.le_of_eq h.symm)
  · rintro error rfl hall
    have hless : count < text.length := h
    have hlen := congrArg List.length hall
    rw [List.length_take] at hlen
    omega

/-- How a call ends, and what it does to the bytes that are out and pending. -/
structure Ends (sink : ScriptedSink) (piece text : Bytes) (delivery : Delivery ScriptedSink) :
    Prop where
  covers : ∃ result, delivery.outcome = .returned result ∧ result.Covers piece text
  flushed : ∃ flush, delivery.flush = some flush
  moved : delivery.flush = some .done →
    delivery.sink.out = sink.out ++ (sink.pending ++ piece) ∧ delivery.sink.pending = []
  held : delivery.flush ≠ some .done →
    delivery.sink.out = sink.out ∧ delivery.sink.pending = sink.pending ++ piece

/-- A flush after writes that took a piece. -/
theorem flush_ends {sink written : ScriptedSink} {piece text : Bytes} {calls : List WriteCall}
    {result : CallResult} (hout : written.out = sink.out)
    (hpending : written.pending = sink.pending ++ piece) (hc : result.Covers piece text) :
    Ends sink piece text ⟨calls, some written.flush.1, .returned result, written.flush.2⟩ := by
  have hmoves := moves_flush hout hpending
  exact ⟨⟨result, rfl, hc⟩, ⟨_, rfl⟩, hmoves.moved, hmoves.held⟩

theorem deliver_ends {sink : ScriptedSink} (hp : sink.Patient) (message : Message)
    (hh : ∀ call ∈ (deliver sink message).calls, call.Honest) :
    Ends sink (message.text.take (reportedBy (deliver sink message).calls)) message.text
      (deliver sink message) := by
  have ht := Parts.trimmed_dropEmpty message.parts
  have hsize : message.parts.dropEmpty.size = message.text.length := Parts.size_dropEmpty _
  rw [calls_deliver] at hh
  have hagrees := writeAll_agrees sink ht
  rw [hsize] at hagrees
  have hpending := pending_writeAll sink message.parts.dropEmpty
  rw [takenBy_writeAll flatten_visible sink _ hh, Parts.flatten_dropEmpty] at hpending
  have hout := out_writeAll sink message.parts.dropEmpty
  have hover := writeAll_ending_ne_overrun flatten_visible sink ht hh
  have hstalled := hp.ending_ne_stalled message.parts.dropEmpty
  obtain ⟨hall, hpart⟩ := take_of_agrees hagrees
  rw [calls_deliver]
  cases he : (writeAll sink message.parts.dropEmpty).ending with
  | complete =>
    rw [deliver_of_complete he]
    refine flush_ends hout hpending ?_
    rw [hall he]
    exact CallResult.covers_ofEnds _ _
  | failed error =>
    rw [deliver_of_failed he]
    exact flush_ends hout hpending (hpart error he)
  | overrun => exact absurd he hover
  | stalled => exact absurd he hstalled

/-! ## Steps and runs -/

/-- What a step is meant to put into the sink. -/
def Step.text : Step → Bytes
  | .call _ message => message.text
  | .poke bytes => bytes

/-- What a step did put into the sink: as much of the text as the writes reported. -/
def Step.piece (report : Report) : Step → Bytes
  | .call _ message => message.text.take (reportedBy report.calls)
  | .poke bytes => bytes

/-- The pieces of a run, in the order of its steps. -/
def pieces (config : Config) (sink : ScriptedSink) (steps : List Step) : List Bytes :=
  List.zipWith (fun report next => Step.piece report next) (run config sink steps).1 steps

/-- A run in which every write reports as many bytes as it took. -/
def Truthful (config : Config) (sink : ScriptedSink) (steps : List Step) : Prop :=
  ∀ report ∈ (run config sink steps).1, ∀ call ∈ report.calls, call.Honest

/-- A step puts its piece behind all that the sink has taken. If it is flushed then all of that is
out, and otherwise nothing more is out than before. -/
structure Places (config : Config) (sink : ScriptedSink) (next : Step) : Prop where
  begins : next.piece (step config sink next).1 <+: next.text
  answers : ∀ form message, next = .call form message → ∃ result flush,
    (deliver sink message).outcome = .returned result ∧
    (step config sink next).1.answer = .reply (form.reply result) ∧
    (step config sink next).1.flush = some flush ∧
    result.Covers (next.piece (step config sink next).1) next.text
  moved : (step config sink next).1.flush = some .done →
    (step config sink next).2.out =
        sink.out ++ (sink.pending ++ next.piece (step config sink next).1) ∧
      (step config sink next).2.pending = []
  held : (step config sink next).1.flush ≠ some .done →
    (step config sink next).2.out = sink.out ∧
      (step config sink next).2.pending = sink.pending ++ next.piece (step config sink next).1

theorem Places.taken {config : Config} {sink : ScriptedSink} {next : Step}
    (h : Places config sink next) :
    (step config sink next).2.taken = sink.taken ++ next.piece (step config sink next).1 := by
  by_cases hf : (step config sink next).1.flush = some .done
  · obtain ⟨ho, hp⟩ := h.moved hf
    rw [ScriptedSink.taken, ScriptedSink.taken, ho, hp, List.append_nil, List.append_assoc]
  · obtain ⟨ho, hp⟩ := h.held hf
    rw [ScriptedSink.taken, ScriptedSink.taken, ho, hp, List.append_assoc]

/-- A call's step is its delivery, reported. -/
theorem step_call {sink : ScriptedSink} {message : Message} {result : CallResult}
    (h : (deliver sink message).outcome = .returned result) (config : Config) (form : Form) :
    (step config sink (.call form message)).2 = (deliver sink message).sink ∧
      (step config sink (.call form message)).1.calls = (deliver sink message).calls ∧
      (step config sink (.call form message)).1.flush = (deliver sink message).flush ∧
      (step config sink (.call form message)).1.answer = .reply (form.reply result) := by
  simp [step, h]

theorem calls_step (config : Config) (sink : ScriptedSink) (form : Form) (message : Message) :
    (step config sink (.call form message)).1.calls = (deliver sink message).calls := by
  simp only [step]
  split <;> rfl

theorem snd_step (config : Config) (sink : ScriptedSink) (form : Form) (message : Message) :
    (step config sink (.call form message)).2 = (deliver sink message).sink := by
  simp only [step]
  split <;> rfl

theorem step_places {config : Config} {sink : ScriptedSink} {next : Step} (hp : sink.Patient)
    (hh : ∀ call ∈ (step config sink next).1.calls, call.Honest) : Places config sink next := by
  cases next with
  | poke bytes =>
    refine ⟨List.prefix_rfl, ?_, ?_, ?_⟩
    · intro form message h
      cases h
    · intro h
      cases h
    · intro _
      exact ⟨rfl, rfl⟩
  | call form message =>
    rw [calls_step] at hh
    obtain ⟨⟨result, hr, hc⟩, ⟨flush, hf⟩, hmoved, hheld⟩ := deliver_ends hp message hh
    obtain ⟨hsink, hcalls, hflush, hanswer⟩ := step_call hr config form
    have hpiece : (Step.call form message).piece (step config sink (.call form message)).1 =
        message.text.take (reportedBy (deliver sink message).calls) := by
      rw [Step.piece, hcalls]
    refine ⟨?_, ?_, ?_, ?_⟩
    · rw [hpiece]
      exact List.take_prefix _ _
    · intro form' message' he
      cases he
      exact ⟨result, flush, hr, hanswer, hflush.trans hf, hpiece ▸ hc⟩
    · rw [hpiece, hsink, hflush]
      exact hmoved
    · rw [hpiece, hsink, hflush]
      exact hheld

theorem Patient.step {sink : ScriptedSink} (hp : sink.Patient) (config : Config) (next : Step) :
    (step config sink next).2.Patient := by
  cases next with
  | poke bytes => exact hp
  | call form message =>
    rw [snd_step]
    exact hp.deliver message

theorem Patient.run {sink : ScriptedSink} (hp : sink.Patient) (config : Config)
    (steps : List Step) : (run config sink steps).2.Patient := by
  have hstep : ∀ sink next, Patient sink → Patient (ScriptedSink.step config sink next).2 :=
    fun _ next h => h.step config next
  exact Session.run_invariant hstep hp steps

theorem truthful_cons {config : Config} {sink : ScriptedSink} {first : Step} {rest : List Step} :
    Truthful config sink (first :: rest) ↔
      (∀ call ∈ (step config sink first).1.calls, call.Honest) ∧
        Truthful config (step config sink first).2 rest := by
  simp [Truthful, run]

/-- A step of a truthful run is one by itself, from the state in which it is made. -/
theorem Truthful.honest {config : Config} {sink : ScriptedSink} {before after : List Step}
    {next : Step} (ht : Truthful config sink (before ++ next :: after)) :
    ∀ call ∈ (step config (run config sink before).2 next).1.calls, call.Honest := by
  apply ht
  rw [run, Session.run_append, Session.run_cons]
  exact List.mem_append_right _ List.mem_cons_self

theorem taken_run {config : Config} {sink : ScriptedSink} {steps : List Step} (hp : sink.Patient)
    (ht : Truthful config sink steps) :
    (run config sink steps).2.taken = sink.taken ++ (pieces config sink steps).flatten := by
  induction steps generalizing sink with
  | nil => simp [run, pieces]
  | cons first rest ih =>
    obtain ⟨hfirst, hrest⟩ := truthful_cons.mp ht
    have hplace := (step_places hp hfirst).taken
    have htail := ih (hp.step config first) hrest
    rw [hplace, List.append_assoc] at htail
    exact htail

/-! ## Scripts of which every run is truthful -/

/-- A sink with no entry in its script that may report more than it takes. -/
def Plain (sink : ScriptedSink) : Prop := ∀ count, .report count ∉ sink.writes

theorem Plain.write {sink : ScriptedSink} (hs : sink.Plain) (parts : Parts) :
    (sink.write parts).2.Plain := by
  intro count hmem
  rw [writes_write] at hmem
  exact hs count (List.mem_of_mem_tail hmem)

theorem Plain.flush {sink : ScriptedSink} (hs : sink.Plain) : sink.flush.2.Plain := by
  simp only [ScriptedSink.flush]
  split <;> exact hs

theorem Plain.step {sink : ScriptedSink} (hs : sink.Plain) (config : Config) (next : Step) :
    (step config sink next).2.Plain := by
  cases next with
  | poke bytes => exact hs
  | call form message =>
    rw [snd_step]
    exact deliver_keeps Plain (fun _ p h => h.write p) (fun _ h => h.flush) hs message

theorem accepted_usualAnswer_le {sink : ScriptedSink} {offer : Bytes} {count : Nat}
    (h : sink.usualAnswer offer = .accepted count) : count ≤ offer.length := by
  simp only [usualAnswer] at h
  split at h
  next => cases h
  next =>
    have := WriteAnswer.accepted.inj h
    omega
  next =>
    have := WriteAnswer.accepted.inj h
    omega

theorem Plain.honest {sink : ScriptedSink} (hs : sink.Plain) (parts : Parts) :
    WriteCall.Honest ⟨sink.visible parts, (sink.write parts).1⟩ := by
  rw [honest_iff]
  cases ha : (sink.write parts).1 with
  | failed error => exact Nat.zero_le _
  | accepted count =>
    change count ≤ (sink.visible parts).flatten.length
    simp only [ScriptedSink.write] at ha
    cases hw : sink.writes with
    | nil =>
      rw [hw] at ha
      exact accepted_usualAnswer_le ha
    | cons entry rest =>
      rw [hw, List.headD_cons] at ha
      cases entry with
      | accept most =>
        have := WriteAnswer.accepted.inj ha
        omega
      | report most => exact absurd (hw ▸ List.mem_cons_self) (hs most)
      | fail error => cases ha
      | usual => exact accepted_usualAnswer_le ha

theorem Plain.truthful {sink : ScriptedSink} (hs : sink.Plain) (config : Config)
    (steps : List Step) : Truthful config sink steps := by
  induction steps generalizing sink with
  | nil => simp [Truthful, ScriptedSink.run]
  | cons first rest ih =>
    refine truthful_cons.mpr ⟨?_, ih (hs.step config first)⟩
    cases first with
    | poke bytes => simp [ScriptedSink.step]
    | call form message =>
      rw [calls_step, calls_deliver]
      exact writeAll_calls Plain (fun _ p h => Plain.write h p) (fun _ p h => Plain.honest h p) hs _

/-! ## Whole sessions -/

/-- A session puts one piece of each step's text into the sink, in the order of the steps: what is
out and what is pending are the pieces, one behind the other. Each step places its piece behind all
that was taken before it. -/
theorem run_exactly_once {config : Config} {sink : ScriptedSink} {steps : List Step}
    (hp : sink.Patient) (ht : Truthful config sink steps) :
    (run config sink steps).2.out ++ (run config sink steps).2.pending =
        sink.out ++ sink.pending ++ (pieces config sink steps).flatten ∧
      ∀ before next after, steps = before ++ next :: after →
        Places config (run config sink before).2 next ∧
          (pieces config sink steps)[before.length]? =
            some (next.piece (step config (run config sink before).2 next).1) := by
  refine ⟨taken_run hp ht, ?_⟩
  rintro before next after rfl
  refine ⟨step_places (hp.run config before) ht.honest, ?_⟩
  have hreport := Session.run_getElem? (step config) sink before next after
  rw [pieces, List.getElem?_zipWith]
  change (run config sink _).1[before.length]? = _ at hreport
  rw [hreport, List.getElem?_append_right (Nat.le_refl _)]
  simp [run]

/-- A call that is cut short, interrupted and in the end fails, and bytes put behind it. -/
theorem run_exactly_once_until_full :
    let sink : ScriptedSink :=
      ⟨false, [.accept 2, .fail (.plain .interrupted)], [.fail (.plain .timedOut)], none, some 3,
        some (.plain .brokenPipe), [], []⟩
    let steps : List Step := [.call .typed (.bytes .line [97, 98, 99]), .poke [33]]
    sink.Patient ∧ Truthful ⟨true⟩ sink steps ∧
      (run ⟨true⟩ sink steps).2.out ++ (run ⟨true⟩ sink steps).2.pending =
        [97, 98, 99] ++ [33] := by
  intro sink steps
  have hp : sink.Patient := by
    intro error he
    cases he
    decide
  have hs : sink.Plain := by simp [Plain, sink]
  have ht := hs.truthful ⟨true⟩ steps
  let cut : ScriptedSink := { sink with writes := sink.writes.tail, pending := [97, 98] }
  let resumed : ScriptedSink := { cut with writes := [] }
  let full : ScriptedSink := { resumed with pending := [97, 98, 99] }
  have hcut : Sink.write sink [[97, 98, 99], [10]] = (.accepted 2, cut) := rfl
  have hinterrupted :
      Sink.write cut [[99], [10]] = (.failed (.plain .interrupted), resumed) := rfl
  have hresumed : Sink.write resumed [[99], [10]] = (.accepted 1, full) := rfl
  have hfull : Sink.write full [[10]] = (.failed (.plain .brokenPipe), full) := rfl
  have htwo : Parts.advance? 2 [[97, 98, 99], [10]] = some [[99], [10]] := rfl
  have hone : Parts.advance? 1 [[99], [10]] = some [[10]] := rfl
  have hcount : reportedBy (writeAll sink [[97, 98, 99], [10]]).calls = 3 := by
    rw [writeAll_of_accepted (by decide) hcut (by decide) htwo,
      writeAll_of_interrupted (by decide) hinterrupted rfl (by decide),
      writeAll_of_accepted (by decide) hresumed (by decide) hone,
      writeAll_of_failed (by decide) hfull (by decide)]
    rfl
  have hpieces : pieces ⟨true⟩ sink steps = [[97, 98, 99], [33]] := by
    change [List.take (reportedBy (step ⟨true⟩ sink (.call .typed (.bytes .line _))).1.calls) _,
      _] = _
    rw [calls_step, calls_deliver]
    change [List.take (reportedBy (writeAll sink [[97, 98, 99], [10]]).calls) _, _] = _
    rw [hcount]
    rfl
  refine ⟨hp, ht, ?_⟩
  rw [(run_exactly_once hp ht).1, hpieces]
  rfl

end ScriptedSink

end Outlet
