import Outlet.Proofs.Families
import Outlet.Proofs.ProbeRun

/-!
# Tracing

A code does not say why a call failed, so a call that collapses its result into a code traces its
error first. The switch for tracing is read by nothing else. Two runs of the probe under different
settings therefore differ in what is seen on standard error, and there in nothing but the traces of
the calls that failed, which stand ahead of the codes.
-/

namespace Outlet

open List

/-- What a code says of the result that it stands for: it is negative only as `-1`, and that exactly
if the call failed. -/
structure CallResult.CodedAs (result : CallResult) (code : Int) : Prop where
  negative : code < 0 → code = -1
  fails : code = -1 ↔ ∃ error, result = .failed error

theorem CallResult.codedAs_code (result : CallResult) : result.CodedAs result.code :=
  ⟨result.code_neg_iff.mp, result.code_eq_failureCode_iff⟩

theorem CallError.code_eq_or (error : CallError) : error.code = 1 ∨ error.code = 4 := by
  cases error with
  | write | flush => exact .inl rfl
  | nullMessage => exact .inr rfl

theorem CallResult.trace_of_disabled {config : Config} (h : config.log = false) (name : String)
    (result : CallResult) : result.trace config name = "" := by
  cases result with
  | wrote => rfl
  | failed error =>
    rw [CallResult.trace, Config.trace, h]
    rfl

theorem CallResult.trace_failed {config : Config} (h : config.log = true) (name : String)
    (error : CallError) :
    (CallResult.failed error).trace config name =
      "[stlib runtime] " ++ name ++ " failed: " ++ error.message ++
        " (code " ++ toString error.code ++ ")\n" := by
  have hwords (message code : String) :
      Config.tag ++ " " ++ (name ++ " failed: " ++ message ++ " (code " ++ code ++ ")") ++ "\n" =
        "[stlib runtime] " ++ name ++ " failed: " ++ message ++ " (code " ++ code ++ ")\n" := by
    apply String.toList_injective
    simp [Config.tag]
  rw [← hwords]
  simp only [CallResult.trace, Config.trace, h, if_true]

/-! ## What is said of the results of a script -/

namespace Script

/-- The line that is traced of a call under its name, if it fails. -/
def Call.failureLine (call : Call) : CallResult → String
  | .wrote _ => ""
  | .failed error => "[stlib runtime] " ++ call.kind.operation ++ " failed: " ++ error.message ++
      " (code " ++ toString error.code ++ ")\n"

theorem Call.trace_of_enabled {config : Config} (h : config.log = true) (call : Call)
    (result : CallResult) : result.trace config call.entry.name = call.failureLine result := by
  cases result with
  | wrote => rfl
  | failed error =>
    rw [call.name_entry]
    exact CallResult.trace_failed h _ error

/-- The codes of some results, a line for each, if they are to be printed. -/
def codeLines (options : CommandLine.Options) (results : List CallResult) : String :=
  if options.codes then String.join (results.map fun result => toString result.code ++ "\n") else ""

end Script

/-! ## Two runs of the probe -/

namespace Probe.Invocation

variable {invocation : Invocation} {options : CommandLine.Options} {calls : List Script.Call}

/-- The invocation under another setting for tracing, or under none. -/
def under (invocation : Invocation) (setting : Option Bytes) : Invocation :=
  { invocation with setting }

/-- Whether tracing is on. -/
def traces (invocation : Invocation) : Bool := (Config.ofSetting invocation.setting).log

/-- The command line names a script that can be read. -/
def Replays (invocation : Invocation) (options : CommandLine.Options)
    (calls : List Script.Call) : Prop :=
  CommandLine.read invocation.arguments = .ok options ∧ Script.read options.calls = .ok calls

theorem Replays.run_eq (h : invocation.Replays options calls) :
    invocation.run = invocation.perform options calls :=
  run_of_read h.1 h.2

theorem Replays.under (h : invocation.Replays options calls) (setting : Option Bytes) :
    (invocation.under setting).Replays options calls :=
  h

/-! ### Runs that show no trace -/

theorem onStdout_under (invocation : Invocation) (setting : Option Bytes) (text : String) :
    (invocation.under setting).onStdout text = invocation.onStdout text :=
  rfl

theorem onStderr_under (invocation : Invocation) (setting : Option Bytes) (text : String) :
    (invocation.under setting).onStderr text = invocation.onStderr text :=
  rfl

/-- The setting for tracing is looked at only where a script is replayed. -/
theorem run_under {setting : Option Bytes}
    (h : ∀ options calls, invocation.Replays options calls →
      (invocation.under setting).perform options calls = invocation.perform options calls) :
    (invocation.under setting).run = invocation.run := by
  have hread : (invocation.under setting).arguments = invocation.arguments := rfl
  cases ho : CommandLine.read invocation.arguments with
  | error stop =>
    simp only [run, hread, ho, onStdout_under, onStderr_under]
    cases stop <;> rfl
  | ok options =>
    cases hc : Script.read options.calls with
    | error error => simp only [run, hread, ho, hc, onStderr_under]
    | ok calls =>
      have hscript : invocation.Replays options calls := ⟨ho, hc⟩
      rw [hscript.run_eq, (hscript.under setting).run_eq, h options calls hscript]

theorem run_under_of_traces {setting : Option Bytes}
    (h : (invocation.under setting).traces = invocation.traces) :
    (invocation.under setting).run = invocation.run := by
  have hconfig : Config.ofSetting setting = Config.ofSetting invocation.setting := by
    rw [Config.mk.injEq]
    exact h
  apply run_under
  intro options calls _
  simp only [perform, under, hconfig]
  rfl

theorem run_under_of_unread (h : ∀ options calls, ¬ invocation.Replays options calls)
    (setting : Option Bytes) : (invocation.under setting).run = invocation.run :=
  run_under fun options calls hscript => absurd hscript (h options calls)

theorem map_out_reports_under (invocation : Invocation) (setting : Option Bytes)
    (options : CommandLine.Options) (calls : List Script.Call) :
    ((invocation.under setting).reports options calls).map Entry.Report.out =
      (invocation.reports options calls).map Entry.Report.out :=
  Stage.map_out_replay_eq _ _ _ calls

/-- Whether a code is negative is told by the results. -/
theorem exists_code_neg_iff (invocation : Invocation) (options : CommandLine.Options)
    (calls : List Script.Call) :
    (∃ report ∈ invocation.reports options calls, report.code < 0) ↔
      ∃ code ∈ ((invocation.start options).results calls).1.map CallResult.code,
        code < 0 := by
  rw [← map_code_reports]
  simp only [mem_map, exists_exists_and_eq_and]

theorem status_perform_under (invocation : Invocation) (setting : Option Bytes)
    (options : CommandLine.Options) (calls : List Script.Call) :
    ((invocation.under setting).perform options calls).status =
      (invocation.perform options calls).status := by
  by_cases h : invocation.Refused options
  · have h' : (invocation.under setting).Refused options := h
    rw [perform_of_refused h, perform_of_refused h']
  · have h' : ¬ (invocation.under setting).Refused options := h
    rw [perform_of_not_refused h, perform_of_not_refused h']
    simp only [exists_code_neg_iff]
    rfl

theorem stdout_perform_under (invocation : Invocation) (setting : Option Bytes)
    (options : CommandLine.Options) (calls : List Script.Call) :
    ((invocation.under setting).perform options calls).stdout =
      (invocation.perform options calls).stdout := by
  rw [stdout_perform, stdout_perform, flatMap_def, map_out_reports_under, ← flatMap_def]

/-- Tracing makes no difference to standard output and the status. -/
theorem output_run_under (invocation : Invocation) (setting : Option Bytes) :
    (invocation.under setting).run.stdout = invocation.run.stdout ∧
      (invocation.under setting).run.status = invocation.run.status := by
  by_cases h : ∃ options calls, invocation.Replays options calls
  · obtain ⟨options, calls, h⟩ := h
    rw [h.run_eq, (h.under setting).run_eq]
    exact ⟨invocation.stdout_perform_under setting options calls,
      invocation.status_perform_under setting options calls⟩
  · have hrun : (invocation.under setting).run = invocation.run :=
      run_under_of_unread (fun options calls hr => h ⟨options, calls, hr⟩) setting
    rw [hrun]
    exact ⟨rfl, rfl⟩

theorem onStderr_of_unseen (h : invocation.stderr ≠ .pipe) (text : String) :
    invocation.onStderr text = [] :=
  if_neg h

/-- Where standard error is not read, nothing but the output of a call is seen of it. -/
theorem flatMap_callEvents_of_unseen (h : invocation.stderr ≠ .pipe)
    (options : CommandLine.Options) (reports : List Entry.Report) :
    reports.flatMap (invocation.callEvents options) =
      (reports.map Entry.Report.out).flatMap fun out => [.wait options.pause, .stdout out] := by
  rw [flatMap_map]
  congr 1
  funext report
  rw [callEvents, onStderr_of_unseen h]

theorem events_perform_of_unseen (h : invocation.stderr ≠ .pipe)
    (options : CommandLine.Options) (calls : List Script.Call) :
    (invocation.perform options calls).events = (invocation.prepare options).1 ++
      ((invocation.reports options calls).map Entry.Report.out).flatMap fun out =>
        [.wait options.pause, .stdout out] := by
  have hcodes : (invocation.reports options calls).flatMap invocation.codeEvents = [] := by
    rw [flatMap_eq_nil_iff]
    intro report _
    exact onStderr_of_unseen h _
  rw [← flatMap_callEvents_of_unseen h, ← scriptEvents]
  rcases invocation.events_perform options calls with hevents | hevents
  · exact hevents
  · rw [hevents, hcodes, append_nil]

theorem perform_under_of_unseen (h : invocation.stderr ≠ .pipe) (setting : Option Bytes)
    (options : CommandLine.Options) (calls : List Script.Call) :
    (invocation.under setting).perform options calls = invocation.perform options calls := by
  have h' : (invocation.under setting).stderr ≠ .pipe := h
  have hevents : ((invocation.under setting).perform options calls).events =
      (invocation.perform options calls).events := by
    rw [events_perform_of_unseen h, events_perform_of_unseen h', map_out_reports_under]
    rfl
  have hrun := congrArg₂ Run.mk hevents (status_perform_under invocation setting options calls)
  exact hrun

/-! ### Runs that show their traces -/

theorem join_eq_empty {texts : List String} (h : ∀ text ∈ texts, text = "") :
    String.join texts = "" := by
  induction texts with
  | nil => rfl
  | cons first rest ih =>
    obtain ⟨hfirst, hrest⟩ := forall_mem_cons.mp h
    rw [String.join_cons, hfirst, ih hrest, String.append_empty]

theorem stderr_perform_eq (hpipe : invocation.stderr = .pipe) (options : CommandLine.Options)
    (calls : List Script.Call) :
    (invocation.perform options calls).stderr =
      String.join ((invocation.reports options calls).map Entry.Report.trace) ++
        Script.codeLines options ((invocation.start options).results calls).1 := by
  have hlines := congrArg (map fun code : Int => toString code ++ "\n")
    (map_code_reports invocation options calls)
  rw [map_map, map_map] at hlines
  rw [stderr_perform hpipe, Script.codeLines]
  exact congrArg (fun lines => _ ++ if options.codes then String.join lines else "") hlines

theorem stderr_perform_of_disabled (hpipe : invocation.stderr = .pipe)
    (h : invocation.traces = false) (options : CommandLine.Options) (calls : List Script.Call) :
    (invocation.perform options calls).stderr =
      Script.codeLines options ((invocation.start options).results calls).1 := by
  have hnone : ∀ report ∈ invocation.reports options calls, report.trace = "" := by
    intro report hmem
    obtain ⟨call, -, result, -, htrace⟩ := Stage.trace_of_mem_replay hmem
    rw [htrace, CallResult.trace_of_disabled h]
  rw [stderr_perform_eq hpipe, join_eq_empty (forall_mem_map.mpr hnone), String.empty_append]

theorem stderr_perform_of_enabled (hpipe : invocation.stderr = .pipe)
    (h : invocation.traces = true) (options : CommandLine.Options) (calls : List Script.Call) :
    (invocation.perform options calls).stderr =
      String.join (zipWith Script.Call.failureLine calls
          ((invocation.start options).results calls).1) ++
        Script.codeLines options ((invocation.start options).results calls).1 := by
  have htraces : (invocation.reports options calls).map Entry.Report.trace =
      zipWith Script.Call.failureLine calls ((invocation.start options).results calls).1 := by
    rw [reports, Stage.map_trace_replay]
    congr 1
    funext call result
    exact call.trace_of_enabled h result
  rw [stderr_perform_eq hpipe, htraces]

/-! ### The switch -/

/-- Under two settings for tracing a run writes the same to standard output and ends with the same
status. It is the same altogether if both settings turn tracing on or both off, if no script is
read, or if nobody reads standard error. Otherwise the traces of the calls that fail stand ahead of
the codes, in the order of the calls, and are all that is added. The codes are those of the results
that the calls would have returned from the same states; a code is negative only as `-1`, and that
exactly if the call fails. -/
theorem tracing_only_adds_traces (invocation : Invocation) (setting : Option Bytes) :
    let other := invocation.under setting
    other.run.stdout = invocation.run.stdout ∧ other.run.status = invocation.run.status ∧
      (other.traces = invocation.traces → other.run = invocation.run) ∧
      ((∀ options calls, ¬ invocation.Replays options calls) → other.run = invocation.run) ∧
      (∀ options calls, invocation.Replays options calls →
        let start := invocation.start options
        let results := (start.results calls).1
        (invocation.reports options calls).map Entry.Report.code = results.map CallResult.code ∧
          (other.reports options calls).map Entry.Report.code = results.map CallResult.code ∧
          (invocation.stderr ≠ .pipe → other.run = invocation.run) ∧
          (invocation.stderr = .pipe → invocation.traces = false → other.traces = true →
            invocation.run.stderr = Script.codeLines options results ∧
              other.run.stderr =
                String.join (zipWith Script.Call.failureLine calls results) ++
                  invocation.run.stderr) ∧
          ∀ before call after, calls = before ++ call :: after →
            ∃ result, results[before.length]? = some result ∧ result.CodedAs result.code ∧
              ∀ config, (Stdout.step config (start.replay config before).2.next.stdout
                (.call .typed call.message)).1.answer = .reply (.result result)) ∧
      (∀ error : CallError, error.code = 1 ∨ error.code = 4) ∧
      ∀ (config : Config) (stdout : Stdout) (entry : Entry),
        (entry.run stdout).1.CodedAs (entry.invoke config stdout).1.code := by
  intro other
  have houtput := invocation.output_run_under setting
  refine ⟨houtput.1, houtput.2, run_under_of_traces, fun h => run_under_of_unread h setting, ?_,
    CallError.code_eq_or, fun _ _ _ => CallResult.codedAs_code _⟩
  intro options calls h start results
  have hrun : invocation.run = invocation.perform options calls := h.run_eq
  have hother : other.run = other.perform options calls := (h.under setting).run_eq
  refine ⟨map_code_reports invocation options calls, map_code_reports other options calls, ?_, ?_,
    ?_⟩
  · intro hseen
    rw [hrun, hother]
    exact perform_under_of_unseen hseen setting options calls
  · intro hpipe hoff hon
    have hpipe' : other.stderr = .pipe := hpipe
    have hdisabled : invocation.run.stderr = Script.codeLines options results := by
      rw [hrun, stderr_perform_of_disabled hpipe hoff]
    refine ⟨hdisabled, ?_⟩
    rw [hdisabled, hother, stderr_perform_of_enabled hpipe' hon]
    rfl
  · rintro before call after rfl
    refine ⟨_, Session.run_getElem? _ start before call after, CallResult.codedAs_code _, ?_⟩
    intro config
    rw [(Stage.replay_results config start before).2]
    rfl

/-- Calls that succeed and calls that fail on a file with room for three bytes, with tracing off and
on. -/
theorem tracing_only_adds_traces_in_turn :
    let invocation : Invocation :=
      ⟨[Utf8.encode "--codes", Utf8.encode "str:ab", Utf8.encode "line:cd", Utf8.encode "cstr:",
        Utf8.encode "cint:5"], none, ⟨⟨.file, some 3, []⟩, []⟩, .pipe⟩
    let other := invocation.under (some (Utf8.encode " 1 "))
    let options : CommandLine.Options :=
      ⟨["str:ab", "line:cd", "cstr:", "cint:5"], true, 0, false, false⟩
    let calls : List Script.Call :=
      [.text .sized .string "ab" (by decide), .text .sized .line "cd" (by decide),
        .text .terminated .string "" (by decide), .integer .terminated 5]
    invocation.Replays options calls ∧ other.run.stdout = invocation.run.stdout ∧
      invocation.run.stderr = "2\n-1\n0\n-1\n" ∧
      other.run.stderr =
        "[stlib runtime] stlib_write_line failed: write to sink failed: " ++
            "File too large (os error 27) (code 1)\n" ++
          ("[stlib runtime] write_integer failed: write to sink failed: " ++
            "File too large (os error 27) (code 1)\n") ++ "2\n-1\n0\n-1\n" := by
  intro invocation other options calls
  have hreplays : invocation.Replays options calls := ⟨by decide +kernel, rfl⟩
  have hsend : ∀ (file : Bytes) (message : Message),
      Stage.send ⟨⟨⟨.file, some 3, file⟩, []⟩, []⟩ message =
        (Stdout.roomResult (3 - file.length) [] message.text,
          ⟨⟨⟨.file, some 3, file ++ message.text.take (3 - file.length)⟩, []⟩, []⟩) := by
    intro file message
    rw [Stage.send, Stage.next_of_steady rfl, Stdout.send_of_limit rfl rfl, nil_append, drop_nil]
  have hresults : ((invocation.start options).results calls).1 =
      [.wrote 2, .failed (.ofWrite .fileTooLarge), .wrote 0,
        .failed (.ofWrite .fileTooLarge)] := by
    show (Stage.results ⟨⟨⟨.file, some 3, []⟩, []⟩, []⟩ [_, _, _, _]).1 = _
    simp only [Stage.results, Session.run_cons, Session.run_nil, hsend]
    decide +kernel
  obtain ⟨hstdout, -, -, -, hscript, -⟩ :=
    tracing_only_adds_traces invocation (some (Utf8.encode " 1 "))
  obtain ⟨-, -, -, hstderr, -⟩ := hscript options calls hreplays
  obtain ⟨hoff, hon⟩ := hstderr rfl rfl (by decide +kernel)
  rw [hresults] at hoff hon
  have hcodes : Script.codeLines options [.wrote 2, .failed (.ofWrite .fileTooLarge), .wrote 0,
      .failed (.ofWrite .fileTooLarge)] = "2\n-1\n0\n-1\n" := by
    decide +kernel
  rw [hoff, hcodes] at hon
  refine ⟨hreplays, hstdout, hoff.trans hcodes, hon.trans ?_⟩
  decide +kernel

end Probe.Invocation

end Outlet
