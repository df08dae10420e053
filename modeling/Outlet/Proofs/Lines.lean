import Outlet.Proofs.DeliveryShape
import Outlet.Proofs.Drain
import Outlet.Proofs.Families

/-!
# A line is a string that ends in a newline

A sink that is shown all parts of an offer cannot tell a line, which comes in two parts, from the
string of its bytes: it is offered the same bytes at every write, gives the same answers, and is
left the same. In a session any lines may therefore be exchanged for strings and back; only the name
in a trace tells them apart.
-/

namespace Outlet

open List WriteCall

/-! ## One text in different parts -/

/-- Two ways to offer one text in parts that are not too many, of which the first is not empty. -/
structure Parts.Regrouped (most : Nat) (parts parts' : Parts) : Prop where
  trimmed : parts.Trimmed
  trimmed' : parts'.Trimmed
  length : parts.length ≤ most
  length' : parts'.length ≤ most
  flatten : parts'.flatten = parts.flatten

namespace Parts.Regrouped

variable {most n : Nat} {parts parts' rest : Parts}

theorem size (h : Regrouped most parts parts') : parts'.size = parts.size := by
  rw [Parts.size, h.flatten, Parts.size]

theorem eq_nil_iff (h : Regrouped most parts parts') : parts' = [] ↔ parts = [] := by
  rw [← h.trimmed.dropEmpty, ← h.trimmed'.dropEmpty, dropEmpty_eq_nil_iff, dropEmpty_eq_nil_iff,
    h.flatten]

theorem advance?_eq_none (h : Regrouped most parts parts') (hr : parts.advance? n = none) :
    parts'.advance? n = none := by
  rw [advance?_eq_none_iff] at hr ⊢
  rwa [h.size]

/-- What is left of both behind the same number of bytes is one text again. -/
theorem advance? (h : Regrouped most parts parts') (hr : parts.advance? n = some rest) :
    ∃ rest', parts'.advance? n = some rest' ∧ Regrouped most rest rest' := by
  have hle : n ≤ parts'.size := h.size ▸ le_size_of_advance? hr
  obtain ⟨rest', hr'⟩ := exists_advance? hle
  refine ⟨rest', hr', trimmed_advance? hr, trimmed_advance? hr',
    (length_advance?_le hr).trans h.length, (length_advance?_le hr').trans h.length', ?_⟩
  rw [flatten_advance? hr, flatten_advance? hr', h.flatten]

end Parts.Regrouped

/-- Two writes that were offered the same bytes and answered the same. -/
structure WriteCall.Alike (call call' : WriteCall) : Prop where
  offer : call'.offer.flatten = call.offer.flatten
  answer : call'.answer = call.answer

/-- Two loops that end the same, behind writes that are alike one by one. -/
structure Written.Alike {σ : Type} (written written' : Written σ) : Prop where
  calls : Forall₂ WriteCall.Alike written.calls written'.calls
  ending : written'.ending = written.ending
  sink : written'.sink = written.sink

theorem Written.Alike.after {σ : Type} {written written' : Written σ} {call call' : WriteCall}
    (hc : call.Alike call') (h : written.Alike written') :
    (written.after call).Alike (written'.after call') :=
  ⟨.cons hc h.calls, h.ending, h.sink⟩

/-- Two deliveries that end the same, behind writes that are alike one by one. -/
structure Delivery.Alike {σ : Type} (delivery delivery' : Delivery σ) : Prop where
  calls : Forall₂ WriteCall.Alike delivery.calls delivery'.calls
  flush : delivery'.flush = delivery.flush
  outcome : delivery'.outcome = delivery.outcome
  sink : delivery'.sink = delivery.sink

variable {σ : Type} [Sink σ]

/-- Sinks of some sort that are shown all parts of an offer, and answer by its bytes if the parts
are not too many. -/
structure Gathering (kept : σ → Prop) (most : Nat) : Prop where
  visible : ∀ sink parts, kept sink → Sink.visible sink parts = parts
  write : ∀ sink (parts parts' : Parts), kept sink → parts.length ≤ most → parts'.length ≤ most →
    parts'.flatten = parts.flatten → Sink.write sink parts' = Sink.write sink parts
  keeps : ∀ sink parts, kept sink → kept (Sink.write sink parts).2

namespace Gathering

variable {kept : σ → Prop} {most : Nat} {sink : σ} {parts parts' : Parts} {answer : WriteAnswer}

theorem write_eq (hg : Gathering kept most) (hs : kept sink) (h : parts.Regrouped most parts')
    (ha : (Sink.write sink parts).1 = answer) :
    Sink.write sink parts' = (answer, (Sink.write sink parts).2) := by
  rw [hg.write sink parts parts' hs h.length h.length' h.flatten, ← ha]

theorem call_alike (hg : Gathering kept most) (hs : kept sink) (h : parts.Regrouped most parts')
    (ha : (Sink.write sink parts).1 = answer) :
    WriteCall.Alike ⟨Sink.visible sink parts, (Sink.write sink parts).1⟩
      ⟨Sink.visible sink parts', answer⟩ :=
  ⟨by rw [hg.visible sink parts hs, hg.visible sink parts' hs, h.flatten], ha.symm⟩

/-- The loop does the same with one text in different parts. -/
theorem writeAll_alike (hg : Gathering kept most) (hs : kept sink) :
    ∀ parts', parts.Regrouped most parts' → (writeAll sink parts).Alike (writeAll sink parts') := by
  fun_induction writeAll sink parts with
  | case1 sink =>
    intro parts' h
    rw [h.eq_nil_iff.mpr rfl, writeAll_nil]
    exact ⟨.nil, rfl, rfl⟩
  | case2 sink parts hp call next ha =>
    intro parts' h
    rw [writeAll_of_zero (mt h.eq_nil_iff.mp hp) (hg.write_eq hs h ha)]
    exact ⟨.cons (hg.call_alike hs h ha) .nil, rfl, rfl⟩
  | case3 sink parts hp call next count ha hr =>
    intro parts' h
    rw [writeAll_of_overrun (mt h.eq_nil_iff.mp hp) (hg.write_eq hs h ha) (Nat.succ_pos count)
      (h.advance?_eq_none hr)]
    exact ⟨.cons (hg.call_alike hs h ha) .nil, rfl, rfl⟩
  | case4 sink parts hp call next count ha rest hr ih =>
    intro parts' h
    obtain ⟨rest', hr', hrest⟩ := h.advance? hr
    rw [writeAll_of_accepted (mt h.eq_nil_iff.mp hp) (hg.write_eq hs h ha) (Nat.succ_pos count) hr']
    exact .after (hg.call_alike hs h ha) (ih (hg.keeps sink parts hs) rest' hrest)
  | case5 sink parts hp call next error ha hi hpat ih =>
    intro parts' h
    rw [writeAll_of_interrupted (mt h.eq_nil_iff.mp hp) (hg.write_eq hs h ha) hi hpat]
    exact .after (hg.call_alike hs h ha) (ih (hg.keeps sink parts hs) parts' h)
  | case6 sink parts hp call next error ha hi hpat =>
    intro parts' h
    rw [writeAll_of_stalled (mt h.eq_nil_iff.mp hp) (hg.write_eq hs h ha) hi hpat]
    exact ⟨.cons (hg.call_alike hs h ha) .nil, rfl, rfl⟩
  | case7 sink parts hp call next error ha hi =>
    intro parts' h
    rw [writeAll_of_failed (mt h.eq_nil_iff.mp hp) (hg.write_eq hs h ha) hi]
    exact ⟨.cons (hg.call_alike hs h ha) .nil, rfl, rfl⟩

/-- Messages of one text are delivered alike. -/
theorem deliver_alike (hg : Gathering kept most) (hs : kept sink) {message message' : Message}
    (hl : message.parts.dropEmpty.length ≤ most) (hl' : message'.parts.dropEmpty.length ≤ most)
    (ht : message'.text = message.text) :
    (deliver sink message).Alike (deliver sink message') := by
  have hgrouped : message.parts.dropEmpty.Regrouped most message'.parts.dropEmpty := by
    refine ⟨Parts.trimmed_dropEmpty _, Parts.trimmed_dropEmpty _, hl, hl', ?_⟩
    rw [Parts.flatten_dropEmpty, Parts.flatten_dropEmpty]
    exact ht
  have hsize : message'.parts.size = message.parts.size := congrArg length ht
  obtain ⟨hcalls, hending, hsink⟩ := hg.writeAll_alike hs _ hgrouped
  rw [deliver, deliver, deliverParts, deliverParts, hending, hsink, hsize]
  split <;> exact ⟨hcalls, rfl, rfl, rfl⟩

end Gathering

/-! ## The sinks -/

theorem ScriptedSink.gathering (most : Nat) :
    Gathering (fun sink : ScriptedSink => sink.vectored = true) most where
  visible sink parts hs := by
    change sink.visible parts = parts
    rw [visible, if_pos hs]
  write sink parts parts' hs _ _ hf := by
    have hvisible (parts : Parts) : sink.visible parts = parts := by rw [visible, if_pos hs]
    change sink.write parts' = sink.write parts
    simp only [ScriptedSink.write, hvisible, hf]
  keeps sink parts hs := (sink.vectored_write parts).trans hs

theorem Descriptor.write_congr (descriptor : Descriptor) {parts parts' : Parts}
    (hl : parts.length ≤ maxParts) (hl' : parts'.length ≤ maxParts)
    (hf : parts'.flatten = parts.flatten) : descriptor.write parts' = descriptor.write parts := by
  have hsize : parts'.size = parts.size := congrArg List.length hf
  have hfault : descriptor.fault? parts' = descriptor.fault? parts := by
    simp only [fault?, if_neg (Nat.not_lt.mpr hl), if_neg (Nat.not_lt.mpr hl'), hsize]
  rw [write, write, hfault, hf]

theorem Stdout.gathering : Gathering (fun _ : Stdout => True) Descriptor.maxParts where
  visible _ _ _ := rfl
  write stdout parts parts' _ hl hl' hf := by
    change stdout.write parts' = stdout.write parts
    cases hd : stdout.drain with
    | mk answer next =>
      cases answer with
      | failed error => rw [write_of_drain_failed hd, write_of_drain_failed hd]
      | done =>
        rw [write_of_drain_done hd, write_of_drain_done hd, Descriptor.write_congr _ hl hl' hf]
  keeps _ _ _ := trivial

/-! ## Calls -/

/-- Two traces of calls under different names: none, or the same but for the name. -/
def TraceAlike (name name' trace trace' : String) : Prop :=
  trace = "" ∧ trace' = "" ∨
    ∃ rest, trace = Config.tag ++ " " ++ name ++ " failed: " ++ rest ∧
      trace' = Config.tag ++ " " ++ name' ++ " failed: " ++ rest

theorem Form.trace_alike (form : Form) (config : Config) (name name' : String)
    (result : CallResult) :
    TraceAlike name name' (form.trace config name result) (form.trace config name' result) := by
  cases form with
  | coded => exact CallResult.trace_alike config name name' result
  | typed => exact .inl ⟨rfl, rfl⟩

theorem text_string_of_line (content : Bytes) :
    Message.text (.bytes .string (content ++ [Bytes.newline])) =
      Message.text (.bytes .line content) := by
  rw [Message.text_string, Message.text_line]

namespace ScriptedSink

/-- Two reports that differ in how the offers were cut and in the name in the trace. -/
structure Report.Alike (name name' : String) (report report' : Report) : Prop where
  answer : report'.answer = report.answer
  calls : Forall₂ WriteCall.Alike report.calls report'.calls
  flush : report'.flush = report.flush
  delivered : report'.delivered = report.delivered
  pending : report'.pending = report.pending
  trace : TraceAlike name name' report.trace report'.trace

/-- A call with a line, and the same call with the string of its bytes. -/
def Step.AsString (next next' : Step) : Prop :=
  ∃ form content, next = .call form (.bytes .line content) ∧
    next' = .call form (.bytes .string (content ++ [Bytes.newline]))

/-- A line and its string, with reports that are alike. -/
def Step.Alike (made made' : Step × Report) : Prop :=
  AsString made.1 made'.1 ∧ Report.Alike "write_line" "write_string" made.2 made'.2

theorem step_alike {sink : ScriptedSink} (hv : sink.vectored = true) (config : Config) (form : Form)
    (content : Bytes) :
    Report.Alike "write_line" "write_string"
        (step config sink (.call form (.bytes .line content))).1
        (step config sink (.call form (.bytes .string (content ++ [Bytes.newline])))).1 ∧
      (step config sink (.call form (.bytes .string (content ++ [Bytes.newline])))).2 =
        (step config sink (.call form (.bytes .line content))).2 := by
  obtain ⟨hcalls, hflush, houtcome, hsink⟩ :=
    (gathering Descriptor.maxParts).deliver_alike hv (Stdout.length_dropEmpty_parts_le _)
      (Stdout.length_dropEmpty_parts_le _) (text_string_of_line content)
  simp only [step, hflush, houtcome, hsink]
  split
  · exact ⟨⟨rfl, hcalls, rfl, rfl, rfl, form.trace_alike config _ _ _⟩, rfl⟩
  · exact ⟨⟨rfl, hcalls, rfl, rfl, rfl, .inl ⟨rfl, rfl⟩⟩, rfl⟩
  · exact ⟨⟨rfl, hcalls, rfl, rfl, rfl, .inl ⟨rfl, rfl⟩⟩, rfl⟩

theorem vectored_step (config : Config) (sink : ScriptedSink) (next : Step) :
    (step config sink next).2.vectored = sink.vectored := by
  cases next with
  | poke bytes => rfl
  | call form message =>
    rw [snd_step]
    exact deliver_keeps (fun s : ScriptedSink => s.vectored = sink.vectored)
      (fun s parts h => (s.vectored_write parts).trans h)
      (fun s h => (flush_keeps fun _ _ _ => rfl).trans h)
      rfl message

theorem run_alike {sink : ScriptedSink} (hv : sink.vectored = true) (config : Config)
    {steps steps' : List Step} (h : Forall₂ (Session.EitherWay Step.AsString) steps steps') :
    Forall₂ (Session.EitherWay Step.Alike) (steps.zip (run config sink steps).1)
        (steps'.zip (run config sink steps').1) ∧
      (run config sink steps').2 = (run config sink steps).2 := by
  refine Session.run_eitherWay (fun sink : ScriptedSink => sink.vectored = true) ?_ ?_ hv h
  · intro sink next hs
    exact (vectored_step config sink next).trans hs
  · rintro sink _ _ hs ⟨form, content, rfl, rfl⟩
    obtain ⟨hreport, hnext⟩ := step_alike hs config form content
    exact ⟨⟨⟨form, content, rfl, rfl⟩, hreport⟩, hnext⟩

end ScriptedSink

namespace Stdout

theorem deliver_alike (stdout : Stdout) (content : Bytes) :
    (deliver stdout (.bytes .line content)).Alike
      (deliver stdout (.bytes .string (content ++ [Bytes.newline]))) :=
  gathering.deliver_alike trivial (length_dropEmpty_parts_le _) (length_dropEmpty_parts_le _)
    (text_string_of_line content)

theorem send_string_of_line (stdout : Stdout) (content : Bytes) :
    send stdout (.bytes .string (content ++ [Bytes.newline])) =
      send stdout (.bytes .line content) := by
  have halike := deliver_alike stdout content
  obtain ⟨result, hr⟩ := exists_deliver_outcome stdout (.bytes .line content)
  rw [send_of_returned hr, send_of_returned (halike.outcome.trans hr), halike.sink]

theorem invoke_alike {content : Bytes} {memory memory' : Option Bytes} {length length' : Nat}
    (h : Entry.sizedBytes memory length = .ok content)
    (h' : Entry.sizedBytes memory' length' = .ok (content ++ [Bytes.newline])) (config : Config)
    (stdout : Stdout) :
    Entry.SameEffect "stlib_write_line" "stlib_write_string"
      ((Entry.sized .line memory length).invoke config stdout)
      ((Entry.sized .string memory' length').invoke config stdout) := by
  have hline : (Entry.sized .line memory length).run stdout =
      send stdout (.bytes .line content) := by
    simp only [Entry.run, Entry.message, h, Except.map]
  have hstring : (Entry.sized .string memory' length').run stdout =
      send stdout (.bytes .string (content ++ [Bytes.newline])) := by
    simp only [Entry.run, Entry.message, h', Except.map]
  have hrun := hstring.trans ((send_string_of_line stdout content).trans hline.symm)
  exact Entry.sameEffect_of_run hrun config

/-- Two reports that differ in nothing but the name in the trace. -/
structure Report.Alike (name name' : String) (report report' : Report) : Prop where
  answer : report'.answer = report.answer
  out : report'.out = report.out
  trace : TraceAlike name name' report.trace report'.trace

/-- A call with a line, and the same call with the string of its bytes, under their names. -/
inductive Step.AsString : String → String → Step → Step → Prop where
  | entry {content : Bytes} {memory memory' : Option Bytes} {length length' : Nat}
      (line : Entry.sizedBytes memory length = .ok content)
      (string : Entry.sizedBytes memory' length' = .ok (content ++ [Bytes.newline])) :
      AsString "stlib_write_line" "stlib_write_string" (.entry (.sized .line memory length))
        (.entry (.sized .string memory' length'))
  | call (form : Form) (content : Bytes) :
      AsString "write_line" "write_string" (.call form (.bytes .line content))
        (.call form (.bytes .string (content ++ [Bytes.newline])))

/-- A line and its string, with reports that are alike. -/
def Step.Alike (made made' : Step × Report) : Prop :=
  ∃ name name', AsString name name' made.1 made'.1 ∧ Report.Alike name name' made.2 made'.2

theorem step_alike {name name' : String} {next next' : Step}
    (h : Step.AsString name name' next next') (config : Config) (stdout : Stdout) :
    Report.Alike name name' (step config stdout next).1 (step config stdout next').1 ∧
      (step config stdout next').2 = (step config stdout next).2 := by
  cases h with
  | entry line string =>
    obtain ⟨⟨hcode, -, htrace⟩, hnext⟩ := invoke_alike line string config stdout
    simp only [step, perform, hcode, hnext]
    exact ⟨⟨rfl, rfl, htrace⟩, trivial⟩
  | call form content =>
    simp only [step, perform, send_string_of_line]
    exact ⟨⟨rfl, rfl, form.trace_alike config _ _ _⟩, trivial⟩

theorem run_alike (config : Config) (stdout : Stdout) {steps steps' : List Step}
    (h : Forall₂ (Session.EitherWay fun next next' => ∃ name name',
      Step.AsString name name' next next') steps steps') :
    Forall₂ (Session.EitherWay Step.Alike) (steps.zip (run config stdout steps).1)
        (steps'.zip (run config stdout steps').1) ∧
      (run config stdout steps').2 = (run config stdout steps).2 := by
  refine Session.run_eitherWay (fun _ => True) (fun _ _ h => h) ?_ trivial h
  rintro stdout next next' - ⟨name, name', hstring⟩
  obtain ⟨hreport, hnext⟩ := step_alike hstring config stdout
  exact ⟨⟨name, name', hstring, hreport⟩, hnext⟩

end Stdout

/-- On a sink that is shown all parts, and on standard output, a line is the string of its bytes:
the writes are offered the same bytes and answered the same, and everything is left the same. In a
session any lines may be exchanged for strings and any such strings for lines; all other steps
report the same, and those exchanged differ in the name in a trace. -/
theorem lines_are_strings (config : Config) {sink : ScriptedSink} (hv : sink.vectored = true)
    {steps steps' : List ScriptedSink.Step}
    (hs : Forall₂ (Session.EitherWay ScriptedSink.Step.AsString) steps steps') (stdout : Stdout)
    {calls calls' : List Stdout.Step}
    (hc : Forall₂ (Session.EitherWay fun next next' => ∃ name name',
      Stdout.Step.AsString name name' next next') calls calls') :
    (∀ form content,
      let line := ScriptedSink.step config sink (.call form (.bytes .line content))
      let string :=
        ScriptedSink.step config sink (.call form (.bytes .string (content ++ [Bytes.newline])))
      ScriptedSink.Report.Alike "write_line" "write_string" line.1 string.1 ∧
        string.2 = line.2) ∧
      (Forall₂ (Session.EitherWay ScriptedSink.Step.Alike)
          (steps.zip (ScriptedSink.run config sink steps).1)
          (steps'.zip (ScriptedSink.run config sink steps').1) ∧
        (ScriptedSink.run config sink steps').2 = (ScriptedSink.run config sink steps).2) ∧
      (∀ content, (deliver stdout (.bytes .line content)).Alike
        (deliver stdout (.bytes .string (content ++ [Bytes.newline])))) ∧
      (∀ content memory memory' length length', Entry.sizedBytes memory length = .ok content →
        Entry.sizedBytes memory' length' = .ok (content ++ [Bytes.newline]) →
          Entry.SameEffect "stlib_write_line" "stlib_write_string"
            ((Entry.sized .line memory length).invoke config stdout)
            ((Entry.sized .string memory' length').invoke config stdout)) ∧
      Forall₂ (Session.EitherWay Stdout.Step.Alike) (calls.zip (Stdout.run config stdout calls).1)
          (calls'.zip (Stdout.run config stdout calls').1) ∧
        (Stdout.run config stdout calls').2 = (Stdout.run config stdout calls).2 := by
  refine ⟨?_, ScriptedSink.run_alike hv config hs, Stdout.deliver_alike stdout, ?_,
    Stdout.run_alike config stdout hc⟩
  · intro form content
    exact ScriptedSink.step_alike hv config form content
  · intro content memory memory' length length' h h'
    exact Stdout.invoke_alike h h' config stdout

/-- A line that is taken up to its newline, interrupted there and then overrun, and an empty one
behind it, on a sink and on a descriptor that is closed between two calls. -/
theorem lines_are_strings_at_the_newline :
    let sink : ScriptedSink :=
      ⟨true, [.accept 2, .fail (.plain .interrupted), .report 9], [.fail (.plain .timedOut)],
        none, none, none, [], []⟩
    let steps : List ScriptedSink.Step :=
      [.call .coded (.bytes .line [97, 98]), .poke [33], .call .typed (.bytes .string [10])]
    let steps' : List ScriptedSink.Step :=
      [.call .coded (.bytes .string [97, 98, 10]), .poke [33], .call .typed (.bytes .line [])]
    let stdout : Stdout := ⟨⟨.file, some 2, []⟩, [120]⟩
    let calls : List Stdout.Step :=
      [.entry (.sized .line (some [97, 98]) 1), .retarget .closed, .entry (.sized .line none 0)]
    let calls' : List Stdout.Step :=
      [.entry (.sized .string (some [97, 10]) 2), .retarget .closed,
        .entry (.sized .string (some [10]) 1)]
    sink.vectored = true ∧
      Forall₂ (Session.EitherWay ScriptedSink.Step.AsString) steps steps' ∧
      Forall₂ (Session.EitherWay fun next next' => ∃ name name',
        Stdout.Step.AsString name name' next next') calls calls' ∧
      (deliver sink (.bytes .line [97, 98])).calls =
        [⟨[[97, 98], [10]], .accepted 2⟩, ⟨[[10]], .failed (.plain .interrupted)⟩,
          ⟨[[10]], .accepted 9⟩] ∧
      (ScriptedSink.run ⟨true⟩ sink steps').2 = (ScriptedSink.run ⟨true⟩ sink steps).2 ∧
      (Stdout.run ⟨true⟩ stdout calls').2 = (Stdout.run ⟨true⟩ stdout calls).2 := by
  intro sink steps steps' stdout calls calls'
  have hv : sink.vectored = true := rfl
  have hsteps : Forall₂ (Session.EitherWay ScriptedSink.Step.AsString) steps steps' :=
    .cons (.inr (.inl ⟨.coded, [97, 98], rfl, rfl⟩)) <|
      .cons (.inl rfl) (.cons (.inr (.inr ⟨.typed, [], rfl, rfl⟩)) .nil)
  have hfront : Entry.sizedBytes (some [97, 98]) 1 = .ok [97] := rfl
  have hnull : Entry.sizedBytes none 0 = .ok [] := rfl
  have hcalls : Forall₂ (Session.EitherWay fun next next' => ∃ name name',
      Stdout.Step.AsString name name' next next') calls calls' :=
    .cons (.inr (.inl ⟨_, _, .entry hfront rfl⟩)) <|
      .cons (.inl rfl) (.cons (.inr (.inl ⟨_, _, .entry hnull rfl⟩)) .nil)
  let cut : ScriptedSink := { sink with writes := sink.writes.tail, pending := [97, 98] }
  let resumed : ScriptedSink := { cut with writes := [.report 9] }
  let past : ScriptedSink := { resumed with writes := [], pending := [97, 98, 10] }
  have hcut : Sink.write sink [[97, 98], [10]] = (.accepted 2, cut) := rfl
  have hinterrupted : Sink.write cut [[10]] = (.failed (.plain .interrupted), resumed) := rfl
  have hover : Sink.write resumed [[10]] = (.accepted 9, past) := rfl
  have htwo : Parts.advance? 2 [[97, 98], [10]] = some [[10]] := rfl
  have hnine : Parts.advance? 9 [[10]] = none := rfl
  obtain ⟨-, ⟨-, hsink⟩, -, -, -, hstdout⟩ :=
    lines_are_strings ⟨true⟩ hv hsteps stdout hcalls
  refine ⟨hv, hsteps, hcalls, ?_, hsink, hstdout⟩
  rw [calls_deliver]
  change (writeAll sink [[97, 98], [10]]).calls = _
  rw [writeAll_of_accepted (by decide) hcut (by decide) htwo,
    writeAll_of_interrupted (by decide) hinterrupted rfl (by decide),
    writeAll_of_overrun (by decide) hover (by decide) hnine]
  rfl

end Outlet
