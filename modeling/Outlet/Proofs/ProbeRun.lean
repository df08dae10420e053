import Outlet.Proofs.FileRoom
import Outlet.Proofs.Replays

/-!
# Runs of the probe

A run with a script that can be read makes every call of it, in order and whatever the calls before
it answered, and then shows the codes and ends as its options say. Where standard output takes
every byte it has received all texts of the script, and where it has been closed none; where it
takes some texts and then fails, what it has received are the texts that it took. The one thing that
a run does not get over is a code that cannot be printed.
-/

namespace Outlet

open List

/-! ## What a run shows -/

namespace Probe

namespace Event

/-- What an event adds to standard output. -/
def out : Event → Bytes
  | .stdout bytes => bytes
  | .close | .wait _ | .stderr _ => []

/-- What an event adds to standard error. -/
def err : Event → String
  | .stderr text => text
  | .close | .wait _ | .stdout _ => ""

end Event

theorem Run.stdout_eq (run : Run) : run.stdout = run.events.flatMap Event.out := by
  rw [Run.stdout]
  congr 1
  funext event
  cases event <;> rfl

theorem foldl_eq_append_join {α : Type} {add : String → α → String} {shown : α → String}
    (h : ∀ text next, add text next = text ++ shown next) (nexts : List α) (text : String) :
    nexts.foldl add text = text ++ String.join (nexts.map shown) := by
  induction nexts generalizing text with
  | nil => exact String.append_empty.symm
  | cons next rest ih =>
    rw [foldl_cons, ih, h, map_cons, String.join_cons, String.append_assoc]

theorem Run.stderr_eq (run : Run) : run.stderr = String.join (run.events.map Event.err) := by
  rw [Run.stderr]
  refine (foldl_eq_append_join ?_ run.events "").trans String.empty_append
  intro text event
  cases event with
  | stderr more => rfl
  | close | wait | stdout => exact String.append_empty.symm

namespace Invocation

variable {invocation : Invocation} {options : CommandLine.Options} {calls : List Script.Call}

/-- Standard output as it is prepared for the calls of a script. -/
def start (invocation : Invocation) (options : CommandLine.Options) : Stage :=
  (invocation.prepare options).2

/-- The reports of the calls of a script, as the probe makes it. -/
def reports (invocation : Invocation) (options : CommandLine.Options)
    (calls : List Script.Call) : List Entry.Report :=
  ((invocation.start options).replay (Config.ofSetting invocation.setting) calls).1

/-- The codes are to be printed and cannot be. -/
def Refused (invocation : Invocation) (options : CommandLine.Options) : Prop :=
  options.codes ∧ invocation.stderr.failsPrint

/-- What is seen of a script, from the preparation of standard output to the last call. -/
def scriptEvents (invocation : Invocation) (options : CommandLine.Options)
    (calls : List Script.Call) : List Event :=
  (invocation.prepare options).1 ++
    (invocation.reports options calls).flatMap (invocation.callEvents options)

theorem perform_of_refused (h : invocation.Refused options) (calls : List Script.Call) :
    invocation.perform options calls = ⟨invocation.scriptEvents options calls, 101⟩ := by
  have hif : (options.codes && invocation.stderr.failsPrint) = true := by
    rw [Bool.and_eq_true]
    exact h
  simp only [perform, hif, if_true]
  rfl

theorem perform_of_not_refused (h : ¬ invocation.Refused options) (calls : List Script.Call) :
    invocation.perform options calls =
      ⟨invocation.scriptEvents options calls ++
          (if options.codes then
            (invocation.reports options calls).flatMap invocation.codeEvents else []),
        if options.failOnError ∧ ∃ report ∈ invocation.reports options calls, report.code < 0 then 1
          else 0⟩ := by
  have hif : (options.codes && invocation.stderr.failsPrint) = false := by
    rw [← Bool.not_eq_true, Bool.and_eq_true]
    exact h
  simp only [perform, hif, Bool.false_eq_true, if_false, Bool.and_eq_true, any_eq_true,
    decide_eq_true_eq]
  rfl

/-- What is seen of a run behind its script are the codes, or nothing. -/
theorem events_perform (invocation : Invocation) (options : CommandLine.Options)
    (calls : List Script.Call) :
    (invocation.perform options calls).events = invocation.scriptEvents options calls ∨
      (invocation.perform options calls).events = invocation.scriptEvents options calls ++
        (invocation.reports options calls).flatMap invocation.codeEvents := by
  by_cases h : invocation.Refused options
  · rw [perform_of_refused h]
    exact .inl rfl
  · rw [perform_of_not_refused h]
    split
    · exact .inr rfl
    · exact .inl (append_nil _)

theorem mem_fst_prepare_iff {event : Event} :
    event ∈ (invocation.prepare options).1 ↔ event = .close ∧ options.closeStdout := by
  rw [prepare]
  cases options.closeStdout <;> simp

/-! ### Standard output -/

theorem flatMap_out_onStderr (invocation : Invocation) (text : String) :
    (invocation.onStderr text).flatMap Event.out = [] := by
  rw [onStderr]
  split <;> rfl

theorem flatMap_out_scriptEvents (invocation : Invocation) (options : CommandLine.Options)
    (calls : List Script.Call) :
    (invocation.scriptEvents options calls).flatMap Event.out =
      (invocation.reports options calls).flatMap Entry.Report.out := by
  have hclosing : (invocation.prepare options).1.flatMap Event.out = [] := by
    rw [flatMap_eq_nil_iff]
    intro event hmem
    rw [(mem_fst_prepare_iff.mp hmem).1]
    rfl
  rw [scriptEvents, flatMap_append, hclosing, nil_append, flatMap_assoc]
  congr 1
  funext report
  rw [callEvents, flatMap_cons, flatMap_cons, flatMap_out_onStderr]
  exact append_nil report.out

theorem flatMap_out_codeEvents (invocation : Invocation) (reports : List Entry.Report) :
    (reports.flatMap invocation.codeEvents).flatMap Event.out = [] := by
  rw [flatMap_assoc, flatMap_eq_nil_iff]
  intro report _
  exact flatMap_out_onStderr invocation _

/-- Only the calls of a script write to standard output. -/
theorem stdout_perform (invocation : Invocation) (options : CommandLine.Options)
    (calls : List Script.Call) :
    (invocation.perform options calls).stdout =
      (invocation.reports options calls).flatMap Entry.Report.out := by
  rw [Run.stdout_eq]
  rcases invocation.events_perform options calls with h | h
  · rw [h, flatMap_out_scriptEvents]
  · rw [h, flatMap_append, flatMap_out_scriptEvents, flatMap_out_codeEvents, append_nil]

/-! ### Standard error -/

theorem join_err_onStderr (h : invocation.stderr = .pipe) (text : String) :
    String.join ((invocation.onStderr text).map Event.err) = text := by
  rw [onStderr, if_pos h, map_singleton, String.join_cons, String.join_nil, String.append_empty]
  rfl

theorem join_err_callEvents (h : invocation.stderr = .pipe) (options : CommandLine.Options)
    (report : Entry.Report) :
    String.join ((invocation.callEvents options report).map Event.err) = report.trace := by
  rw [callEvents, map_cons, map_cons, String.join_cons, String.join_cons, join_err_onStderr h]
  exact String.empty_append.trans String.empty_append

/-- What is seen of each report on standard error, is seen of all in their order. -/
theorem join_err_flatMap {seen : Entry.Report → List Event} {text : Entry.Report → String}
    (h : ∀ report, String.join ((seen report).map Event.err) = text report)
    (reports : List Entry.Report) :
    String.join ((reports.flatMap seen).map Event.err) = String.join (reports.map text) := by
  induction reports with
  | nil => rfl
  | cons report rest ih =>
    rw [flatMap_cons, map_append, String.join_append, ih, map_cons, String.join_cons, h]

theorem join_err_scriptEvents (h : invocation.stderr = .pipe) (options : CommandLine.Options)
    (calls : List Script.Call) :
    String.join ((invocation.scriptEvents options calls).map Event.err) =
      String.join ((invocation.reports options calls).map Entry.Report.trace) := by
  have hclosing : String.join ((invocation.prepare options).1.map Event.err) = "" := by
    rw [prepare]
    cases options.closeStdout <;> rfl
  rw [scriptEvents, map_append, String.join_append, hclosing, String.empty_append,
    join_err_flatMap (join_err_callEvents h options)]

/-- The codes of all calls are printed behind the traces of all calls, a line for each. -/
theorem stderr_perform (h : invocation.stderr = .pipe) (options : CommandLine.Options)
    (calls : List Script.Call) :
    (invocation.perform options calls).stderr =
      String.join ((invocation.reports options calls).map Entry.Report.trace) ++
        if options.codes then
          String.join ((invocation.reports options calls).map fun report =>
            toString report.code ++ "\n")
        else "" := by
  have hn : ¬ invocation.Refused options := by
    rw [Refused, h]
    simp [Stream.failsPrint]
  rw [Run.stderr_eq, perform_of_not_refused hn, map_append, String.join_append,
    join_err_scriptEvents h]
  congr 1
  split
  · exact join_err_flatMap (fun report => join_err_onStderr h _) _
  · rfl

/-! ### Whole runs -/

theorem run_of_read (ho : CommandLine.read invocation.arguments = .ok options)
    (hc : Script.read options.calls = .ok calls) :
    invocation.run = invocation.perform options calls := by
  simp only [run, ho, hc]

theorem held_start (invocation : Invocation) (options : CommandLine.Options) :
    (invocation.start options).stdout.held = [] := by
  rw [start, prepare]
  cases options.closeStdout <;> rfl

theorem start_bad (invocation : Invocation) (ho : options.closeStdout) :
    (invocation.start options).stdout.descriptor.Bad := by
  rw [start, prepare, ho]
  exact .inl rfl

theorem target_start_ne_null (invocation : Invocation) (ho : options.closeStdout) :
    (invocation.start options).stdout.descriptor.target ≠ .null := by
  intro ht
  rcases invocation.start_bad ho with h | h <;> cases h.symm.trans ht

/-- What a run writes to standard output is what the descriptor takes, unless that forgets it. -/
theorem stdout_perform_eq_flatten
    (hn : (invocation.start options).stdout.descriptor.target ≠ .null) (calls : List Script.Call) :
    (invocation.perform options calls).stdout =
      ((invocation.start options).receipts calls).flatten := by
  rw [stdout_perform, flatMap_def, reports, Stage.map_out_replay hn]

theorem map_code_reports (invocation : Invocation) (options : CommandLine.Options)
    (calls : List Script.Call) :
    (invocation.reports options calls).map Entry.Report.code =
      ((invocation.start options).results calls).1.map CallResult.code :=
  (Stage.replay_results _ _ calls).1

/-- Where all texts are taken, no call is traced. -/
theorem trace_reports_of_takes (ht : (invocation.start options).Takes calls) :
    ∀ report ∈ invocation.reports options calls, report.trace = "" := by
  intro report hmem
  obtain ⟨call, -, result, hresult, htrace⟩ := Stage.trace_of_mem_replay hmem
  rw [Stage.results_of_takes (invocation.held_start options) ht, mem_map] at hresult
  obtain ⟨_, -, rfl⟩ := hresult
  exact htrace

theorem map_code_reports_of_takes (ht : (invocation.start options).Takes calls) :
    (invocation.reports options calls).map Entry.Report.code =
      calls.map fun call => min (call.bytes.length : Int) 2147483647 := by
  rw [map_code_reports, Stage.results_of_takes (invocation.held_start options) ht, map_map]
  rfl

theorem map_code_reports_of_closed (ho : options.closeStdout) (calls : List Script.Call) :
    (invocation.reports options calls).map Entry.Report.code =
      calls.map fun call => if call.bytes = [] then 0 else -1 := by
  rw [map_code_reports, Stage.results_bad (invocation.start_bad ho), map_map]
  congr 1
  funext call
  rw [Function.comp_apply, apply_ite CallResult.code]
  rfl

/-- A run that is not broken off tells of a failure if that is asked for. -/
theorem status_perform (h : ¬ invocation.Refused options) (calls : List Script.Call) :
    (invocation.perform options calls).status =
      if options.failOnError ∧ ∃ report ∈ invocation.reports options calls, report.code < 0 then 1
      else 0 := by
  rw [perform_of_not_refused h]

theorem status_perform_of_takes (h : ¬ invocation.Refused options)
    (ht : (invocation.start options).Takes calls) :
    (invocation.perform options calls).status = 0 := by
  have hnone : ∀ code ∈ (invocation.reports options calls).map Entry.Report.code, ¬ code < 0 := by
    rw [map_code_reports_of_takes ht]
    refine forall_mem_map.mpr ?_
    intro call _
    omega
  rw [status_perform h, if_neg]
  intro ⟨_, report, hmem, hneg⟩
  exact hnone _ (mem_map_of_mem hmem) hneg

/-- A run makes all calls of its script in order, whatever some of them answer, on standard output
as the calls before them and others left it. Where standard output takes the text of every call it
has received all texts, and where it has been closed none; where it takes some, what is seen of it
is what it has taken. Then the codes are printed, and the status tells of a failure if that is asked
for. A run that cannot print the codes is broken off with a status of its own, which is told here of
the runs that would not have told of a failure. -/
theorem run_replays_script (ho : CommandLine.read invocation.arguments = .ok options)
    (hc : Script.read options.calls = .ok calls) :
    let config := Config.ofSetting invocation.setting
    let start := invocation.start options
    let reports := invocation.reports options calls
    let codes := reports.map Entry.Report.code
    (start.Takes calls →
        start.receipts calls = calls.map Script.Call.bytes ∧
          (start.stdout.descriptor.target ≠ .null →
            invocation.run.stdout = (calls.map Script.Call.bytes).flatten) ∧
          codes = calls.map (fun call => min (call.bytes.length : Int) 2147483647) ∧
          (∀ report ∈ reports, report.trace = "") ∧
          (¬ invocation.Refused options → invocation.run.status = 0)) ∧
      (start.Open → start.Takes calls) ∧
      (options.closeStdout →
        start.receipts calls = calls.map (fun _ => []) ∧ invocation.run.stdout = [] ∧
          codes = calls.map fun call => if call.bytes = [] then 0 else -1) ∧
      reports.length = calls.length ∧
      (∀ before call after, calls = before ++ call :: after →
        reports[before.length]? =
          some (call.entry.invoke config (start.replay config before).2.next.stdout).1) ∧
      (start.changes = [] → reports = (Script.replay config start.stdout calls).1) ∧
      (invocation.prepare options).1 ++ reports.flatMap (invocation.callEvents options) <+:
        invocation.run.events ∧
      invocation.run.stdout = reports.flatMap Entry.Report.out ∧
      (start.stdout.descriptor.target ≠ .null →
        invocation.run.stdout = (start.receipts calls).flatten) ∧
      (invocation.stderr = .pipe →
        invocation.run.stderr = String.join (reports.map Entry.Report.trace) ++
          if options.codes then String.join (reports.map fun report =>
            toString report.code ++ "\n")
          else "") ∧
      (invocation.Refused options →
        ¬ (options.failOnError ∧ ∃ report ∈ reports, report.code < 0) →
          invocation.run.status = 101) ∧
      (¬ invocation.Refused options → invocation.run.status =
        if options.failOnError ∧ ∃ report ∈ reports, report.code < 0 then 1 else 0) := by
  intro config start reports codes
  have hrun : invocation.run = invocation.perform options calls := run_of_read ho hc
  have hheld : start.stdout.held = [] := invocation.held_start options
  have hseen : start.stdout.descriptor.target ≠ .null →
      invocation.run.stdout = (start.receipts calls).flatten := by
    intro hn
    rw [hrun, stdout_perform_eq_flatten hn]
  refine ⟨?_, fun hopen => hopen.takes hheld calls, ?_, Session.length_run _ _ _, ?_,
    fun hsteady => Stage.replay_of_steady hsteady config calls, ?_, ?_, hseen, ?_, ?_, ?_⟩
  · intro ht
    have hreceipts := Stage.receipts_of_takes hheld ht
    refine ⟨hreceipts, ?_, map_code_reports_of_takes ht, trace_reports_of_takes ht, ?_⟩
    · intro hn
      rw [hseen hn, hreceipts]
    · intro hr
      rw [hrun, status_perform_of_takes hr ht]
  · intro hclose
    have hreceipts := Stage.receipts_bad (invocation.start_bad hclose) calls
    refine ⟨hreceipts, ?_, map_code_reports_of_closed hclose calls⟩
    rw [hseen (invocation.target_start_ne_null hclose), hreceipts, flatten_eq_nil_iff]
    exact forall_mem_map.mpr fun _ _ => rfl
  · intro before call after h
    have hreport := Session.run_getElem? (Stage.call config) start before call after
    rw [← h] at hreport
    exact hreport
  · rw [hrun]
    rcases invocation.events_perform options calls with h | h
    · rw [h]
      exact prefix_rfl
    · rw [h]
      exact prefix_append _ _
  · rw [hrun, stdout_perform]
  · intro hpipe
    rw [hrun, stderr_perform hpipe]
  · intro hr _
    rw [hrun, perform_of_refused hr]
  · intro hr
    rw [hrun, status_perform hr]

/-- A text that the room lasts for, one that it does not last for, one with room again, and one that
nobody reads. -/
theorem run_replays_script_in_turn :
    let output : Output := ⟨⟨.file, some 5, []⟩, [.nothing, .nothing, .limit none, .readerLeaves]⟩
    let invocation : Invocation :=
      ⟨[Utf8.encode "--codes", Utf8.encode "str:abc", Utf8.encode "line:de", Utf8.encode "cint:-7",
        Utf8.encode "--fail-on-error", Utf8.encode "cstr:f"], none, output, .pipe⟩
    let options : CommandLine.Options :=
      ⟨["str:abc", "line:de", "cint:-7", "cstr:f"], true, 0, false, true⟩
    let calls : List Script.Call :=
      [.text .sized .string "abc" (by decide), .text .sized .line "de" (by decide),
        .integer .terminated (-7), .text .terminated .string "f" (by decide)]
    CommandLine.read invocation.arguments = .ok options ∧ Script.read options.calls = .ok calls ∧
      invocation.run.stdout = Utf8.encode "abcde-7" ∧
      invocation.run.stderr = "3\n-1\n2\n-1\n" ∧ invocation.run.status = 1 := by
  intro output invocation options calls
  have ho : CommandLine.read invocation.arguments = .ok options := by decide +kernel
  have hc : Script.read options.calls = .ok calls := rfl
  have hfirst : (invocation.start options).call ⟨false⟩ (.text .sized .string "abc" (by decide)) =
      (⟨3, Utf8.encode "abc", ""⟩,
        ⟨⟨⟨.file, some 5, Utf8.encode "abc"⟩, []⟩, [.nothing, .limit none, .readerLeaves]⟩) := by
    rw [Stage.call_eq, Stage.send, Stdout.send_of_limit rfl rfl]
    decide +kernel
  have hsecond :
      Stage.call ⟨false⟩
          ⟨⟨⟨.file, some 5, Utf8.encode "abc"⟩, []⟩, [.nothing, .limit none, .readerLeaves]⟩
          (.text .sized .line "de" (by decide)) =
        (⟨-1, Utf8.encode "de", ""⟩,
          ⟨⟨⟨.file, some 5, Utf8.encode "abcde"⟩, []⟩, [.limit none, .readerLeaves]⟩) := by
    rw [Stage.call_eq, Stage.send, Stdout.send_of_limit rfl rfl]
    decide +kernel
  have hthird :
      Stage.call ⟨false⟩
          ⟨⟨⟨.file, some 5, Utf8.encode "abcde"⟩, []⟩, [.limit none, .readerLeaves]⟩
          (.integer .terminated (-7)) =
        (⟨2, Utf8.encode "-7", ""⟩,
          ⟨⟨⟨.file, none, Utf8.encode "abcde-7"⟩, []⟩, [.readerLeaves]⟩) := by
    rw [Stage.call_eq, Stage.send, Stdout.send_of_unlimited (.inl rfl) (.inr rfl)]
    decide +kernel
  have hlast :
      Stage.call ⟨false⟩ ⟨⟨⟨.file, none, Utf8.encode "abcde-7"⟩, []⟩, [.readerLeaves]⟩
          (.text .terminated .string "f" (by decide)) =
        (⟨-1, [], ""⟩, ⟨⟨⟨.brokenPipe, none, Utf8.encode "abcde-7"⟩, []⟩, []⟩) := by
    rw [Stage.call_eq, Stage.send, Stdout.send_refusing (.inr ⟨rfl, rfl⟩)]
    decide +kernel
  have hreports : invocation.reports options calls = [⟨3, Utf8.encode "abc", ""⟩,
      ⟨-1, Utf8.encode "de", ""⟩, ⟨2, Utf8.encode "-7", ""⟩, ⟨-1, [], ""⟩] := by
    show (Session.run (Stage.call ⟨false⟩) (invocation.start options) [_, _, _, _]).1 = _
    rw [Session.run_cons, Session.run_cons, Session.run_cons, Session.run_cons, Session.run_nil,
      hfirst, hsecond, hthird, hlast]
  obtain ⟨-, -, -, -, -, -, -, hstdout, -, hstderr, -, hstatus⟩ := run_replays_script ho hc
  rw [hreports] at hstdout hstderr hstatus
  have hprinted : ¬ invocation.Refused options := by
    rw [Refused]
    decide
  refine ⟨ho, hc, hstdout.trans ?_, (hstderr rfl).trans ?_, (hstatus hprinted).trans ?_⟩
  · decide +kernel
  · decide +kernel
  · exact if_pos ⟨rfl, _, mem_cons_of_mem _ mem_cons_self, by decide⟩

/-- The status tells of no failure, and is not zero either, if the codes cannot be printed. -/
theorem status_of_refused_codes :
    let invocation : Invocation :=
      ⟨[Utf8.encode "--codes", Utf8.encode "str:a"], none, Stream.pipe, .full⟩
    ∃ options calls, CommandLine.read invocation.arguments = .ok options ∧
      Script.read options.calls = .ok calls ∧ options.failOnError = false ∧
      ¬ (invocation.run.status =
        if options.failOnError ∧ ∃ report ∈ invocation.reports options calls, report.code < 0 then 1
        else 0) := by
  intro invocation
  have ho : CommandLine.read invocation.arguments = .ok ⟨["str:a"], true, 0, false, false⟩ := by
    decide +kernel
  have hc : Script.read ["str:a"] = .ok [.text .sized .string "a" (by decide)] := rfl
  refine ⟨_, _, ho, hc, rfl, ?_⟩
  rw [run_of_read ho hc, perform_of_refused ⟨rfl, rfl⟩, if_neg fun h => Bool.false_ne_true h.1]
  decide

end Invocation

end Probe

end Outlet
