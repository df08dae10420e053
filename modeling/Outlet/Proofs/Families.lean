import Outlet.Probe
import Outlet.Proofs.Scripts
import Outlet.Proofs.SideBySide
import Outlet.Script.Replay

/-!
# The two families of entry points

What is written depends on the message of a call alone, however the message was passed. A script
whose calls are made, some of them, at the entry points of the other family therefore answers,
writes and leaves the same; only the name in a trace tells the families apart. The one thing that
is lost is a string with a zero character inside, which cannot be passed to the other family, and
then the script is not made at all.
-/

namespace Outlet

open List

def Family.other : Family → Family
  | .sized => .terminated
  | .terminated => .sized

namespace Script

/-- The same kind of call in the other family. -/
def Kind.other : Kind → Kind
  | text family shape => text family.other shape
  | integer family => integer family.other

/-- The name under which a failure of a call is traced. -/
def Kind.operation : Kind → String
  | text .sized .string => "stlib_write_string"
  | text .sized .line => "stlib_write_line"
  | text .terminated .string => "write_string"
  | text .terminated .line => "write_line"
  | integer _ => "write_integer"

/-- A payload under the keyword of one family, and under that of the other. -/
def Exchanged (argument argument' : String) : Prop :=
  ∃ kind payload, argument = Kind.written kind payload ∧ argument' = kind.other.written payload

/-- Two scripts of which the second has some arguments exchanged, at any positions. -/
def SomeExchanged (arguments arguments' : List String) : Prop :=
  Forall₂ (fun argument argument' => argument' = argument ∨ Exchanged argument argument')
    arguments arguments'

/-- A string with a zero byte inside that was passed with its length, and now is not. -/
def Truncates (argument argument' : String) : Prop :=
  ∃ shape payload, argument = (Kind.text .sized shape).written payload ∧
    argument' = (Kind.text .terminated shape).written payload ∧ 0 ∈ Utf8.encode payload

/-- Two calls of one message, in the same family or in the other. -/
structure Counterpart (call call' : Call) : Prop where
  message : call'.message = call.message
  kind : call'.kind = call.kind ∨ call'.kind = call.kind.other

end Script

/-! ## One call -/

/-- Two reports that differ in nothing but the name in the trace. -/
structure Entry.Report.Alike (name name' : String) (report report' : Entry.Report) : Prop where
  code : report'.code = report.code
  out : report'.out = report.out
  trace : report.trace = "" ∧ report'.trace = "" ∨
    ∃ rest, report.trace = Config.tag ++ " " ++ name ++ " failed: " ++ rest ∧
      report'.trace = Config.tag ++ " " ++ name' ++ " failed: " ++ rest

/-- Two calls that report and leave the same, but for the name in the trace. -/
def Entry.SameEffect (name name' : String) (made made' : Entry.Report × Stdout) : Prop :=
  Report.Alike name name' made.1 made'.1 ∧ made'.2 = made.2

/-- The trace of a result names the call once, in front. -/
theorem CallResult.trace_alike (config : Config) (name name' : String) (result : CallResult) :
    result.trace config name = "" ∧ result.trace config name' = "" ∨
      ∃ rest, result.trace config name = Config.tag ++ " " ++ name ++ " failed: " ++ rest ∧
        result.trace config name' = Config.tag ++ " " ++ name' ++ " failed: " ++ rest := by
  cases result with
  | wrote count => exact .inl ⟨rfl, rfl⟩
  | failed error =>
    simp only [CallResult.trace, Config.trace]
    split
    · refine .inr ⟨error.message ++ " (code " ++ toString error.code ++ ")" ++ "\n", ?_, ?_⟩ <;>
        simp only [String.append_assoc]
    · exact .inl ⟨rfl, rfl⟩

theorem Entry.sameEffect_of_run {entry entry' : Entry} {stdout : Stdout}
    (h : entry'.run stdout = entry.run stdout) (config : Config) :
    SameEffect entry.name entry'.name (entry.invoke config stdout)
      (entry'.invoke config stdout) := by
  rw [invoke, invoke, h]
  exact ⟨⟨rfl, rfl, CallResult.trace_alike config _ _ _⟩, rfl⟩

/-- What an entry point does depends on the message that it finds. -/
theorem Entry.invoke_sameEffect {entry entry' : Entry} (h : entry'.message = entry.message)
    (config : Config) (stdout : Stdout) :
    SameEffect entry.name entry'.name (entry.invoke config stdout)
      (entry'.invoke config stdout) := by
  have hrun : entry'.run stdout = entry.run stdout := by rw [run, run, h]
  exact sameEffect_of_run hrun config

namespace Script

theorem Call.name_entry (call : Call) : call.entry.name = call.kind.operation := by
  rcases call with ⟨_ | _, _ | _, content, h⟩ | ⟨family, value⟩ <;> rfl

theorem Counterpart.invoke {call call' : Call} (h : Counterpart call call') (config : Config)
    (stdout : Stdout) :
    Entry.SameEffect call.kind.operation call'.kind.operation (call.entry.invoke config stdout)
      (call'.entry.invoke config stdout) := by
  rw [← call.name_entry, ← call'.name_entry]
  apply Entry.invoke_sameEffect
  rw [call.message_entry, call'.message_entry, h.message]

/-! ## Reading -/

namespace Kind

theorem read_terminated_of_zero {payload : String} (hz : 0 ∈ Utf8.encode payload)
    (shape : Shape) : ∃ cause, (text .terminated shape).read payload = .error cause := by
  refine ⟨_, dif_neg ?_⟩
  intro h
  exact h rfl ((Utf8.zero_mem_encode_iff payload).mp hz)

/-- The payload of a call can be that of its counterpart, unless it would be cut short. -/
theorem read_other {kind : Kind} {payload : String} {call : Call}
    (h : kind.read payload = .ok call)
    (hz : ∀ shape, kind = .text .sized shape → 0 ∉ Utf8.encode payload) :
    ∃ call', kind.other.read payload = .ok call' ∧ Counterpart call call' := by
  cases kind with
  | text family shape =>
    obtain ⟨terminable, rfl⟩ := read_text_eq_ok_iff.mp h
    have hother : family.other = .terminated → '\x00' ∉ payload.toList := by
      cases family with
      | sized =>
        intro _
        rw [← Utf8.zero_mem_encode_iff]
        exact hz shape rfl
      | terminated =>
        intro h
        cases h
    exact ⟨_, read_text_eq_ok_iff.mpr ⟨hother, rfl⟩, rfl, .inr rfl⟩
  | integer family =>
    rw [read] at h
    rw [other, read]
    cases hn : Decimal.Numeral.read .signed64 (Utf8.encode payload) with
    | error cause =>
      rw [hn] at h
      cases h
    | ok value =>
      rw [hn] at h
      cases h
      exact ⟨_, rfl, rfl, .inr rfl⟩

end Kind

theorem Truncates.read {argument argument' : String} (h : Truncates argument argument') :
    ∃ cause, Call.read argument' = .error cause := by
  obtain ⟨shape, payload, -, rfl, hz⟩ := h
  rw [Call.read_written]
  exact Kind.read_terminated_of_zero hz shape

/-- An argument is read to the same call, or to its counterpart. -/
theorem read_exchanged {argument argument' : String} {call : Call}
    (h : Call.read argument = .ok call) (hex : argument' = argument ∨ Exchanged argument argument')
    (ht : ¬ Truncates argument argument') :
    ∃ call', Call.read argument' = .ok call' ∧ Counterpart call call' := by
  rcases hex with rfl | ⟨kind, payload, rfl, rfl⟩
  · exact ⟨call, h, rfl, .inl rfl⟩
  · rw [Call.read_written] at h ⊢
    apply Kind.read_other h
    intro shape hkind hz
    apply ht
    rw [hkind]
    exact ⟨shape, payload, rfl, rfl, hz⟩

/-- A script is read to counterparts of its calls, unless a string in it would be cut short. -/
theorem readFrom_exchanged {position : Nat} {arguments arguments' : List String}
    {calls : List Call} (h : readFrom position arguments = .ok calls)
    (hex : SomeExchanged arguments arguments') :
    (∃ pair ∈ arguments.zip arguments', Truncates pair.1 pair.2) ∧
        (∃ error, readFrom position arguments' = .error error) ∨
      (∀ pair ∈ arguments.zip arguments', ¬ Truncates pair.1 pair.2) ∧
        ∃ calls', readFrom position arguments' = .ok calls' ∧
          Forall₂ Counterpart calls calls' := by
  -- Both alternatives are kept together: the first argument that is cut short decides for the first
  -- whatever the rest does, and only if there is none the calls of the rest are looked at.
  induction hex generalizing position calls with
  | nil =>
    cases h
    exact .inr ⟨by simp, [], rfl, .nil⟩
  | @cons argument argument' rest rest' hfirst _ ih =>
    obtain ⟨call, more, hcall, hmore, rfl⟩ := readFrom_cons_eq_ok_iff.mp h
    rw [readFrom_cons_eq_error_iff]
    simp only [readFrom_cons_eq_ok_iff, zip_cons_cons, exists_mem_cons_iff, forall_mem_cons]
    by_cases ht : Truncates argument argument'
    · exact .inl ⟨.inl ht, .inl ht.read⟩
    · obtain ⟨call', hcall', hcounter⟩ := read_exchanged hcall hfirst ht
      rcases ih hmore with ⟨htrunc, herror⟩ | ⟨hnone, more', hmore', hcounters⟩
      · exact .inl ⟨.inr htrunc, .inr herror⟩
      · exact .inr ⟨⟨ht, hnone⟩, _, ⟨call', more', hcall', hmore', rfl⟩,
          .cons hcounter hcounters⟩

/-! ## Replaying -/

/-- The calls of a script and what they report, side by side. -/
def AlikeCalls (made made' : Call × Entry.Report) : Prop :=
  Counterpart made.1 made'.1 ∧
    Entry.Report.Alike made.1.kind.operation made'.1.kind.operation made.2 made'.2

theorem replay_counterparts {calls calls' : List Call} (h : Forall₂ Counterpart calls calls')
    (config : Config) (stdout : Stdout) :
    Forall₂ AlikeCalls (calls.zip (replay config stdout calls).1)
        (calls'.zip (replay config stdout calls').1) ∧
      (replay config stdout calls').2 = (replay config stdout calls).2 := by
  let step := fun (stdout : Stdout) (call : Call) => call.entry.invoke config stdout
  have hstep : ∀ (state state' : Stdout) (call call' : Call),
      state' = state → Counterpart call call' →
        AlikeCalls (call, (step state call).1) (call', (step state' call').1) ∧
          (step state' call').2 = (step state call).2 := by
    intro state state' call call' hs hc
    obtain ⟨halike, hnext⟩ := hc.invoke config state
    rw [hs]
    exact ⟨⟨hc, halike⟩, hnext⟩
  exact Session.run_related hstep rfl h

end Script

namespace Probe.Invocation

variable {invocation : Invocation} {options : CommandLine.Options}

theorem eq_stderr_of_mem_onStderr {text : String} {event : Event}
    (h : event ∈ invocation.onStderr text) : ∃ text, event = .stderr text := by
  rw [onStderr] at h
  split at h
  · exact ⟨text, mem_singleton.mp h⟩
  · cases h

theorem run_of_refused {error : Script.Error}
    (ho : CommandLine.read invocation.arguments = .ok options)
    (hc : Script.read options.calls = .error error) :
    invocation.run = ⟨invocation.onStderr ("Error: " ++ error.chain.report ++ "\n"), 1⟩ := by
  simp only [run, ho, hc]

/-- Of a script that is refused nothing is seen but what is said of it. -/
theorem events_run_of_refused {error : Script.Error}
    (ho : CommandLine.read invocation.arguments = .ok options)
    (hc : Script.read options.calls = .error error) :
    ∀ event ∈ invocation.run.events, ∃ text, event = .stderr text := by
  rw [run_of_refused ho hc]
  exact fun _ => eq_stderr_of_mem_onStderr

end Probe.Invocation

namespace Script

/-! ## The families agree -/

/-- An entry point that is passed a string closed by a zero byte has the effect of the one that is
passed the bytes found there. -/
theorem sameEffect_of_terminatedBytes {memory : Option Bytes} {content : Bytes}
    (h : Entry.terminatedBytes memory = content) (config : Config) (stdout : Stdout)
    (shape : Shape) :
    Entry.SameEffect (Kind.text .sized shape).operation (Kind.text .terminated shape).operation
      ((Entry.sized shape (some content) content.length).invoke config stdout)
      ((Entry.terminated shape memory).invoke config stdout) := by
  have hmessage : (Entry.terminated shape memory).message =
      (Entry.sized shape (some content) content.length).message := by
    simp [Entry.message, Entry.sizedBytes, Except.map, h]
  have heffect := Entry.invoke_sameEffect hmessage config stdout
  cases shape <;> exact heffect

/-- A script some of whose arguments are exchanged for the other family is not made if that cuts a
string short, and is otherwise made to the same effect, from any state and call by call. A string
of bytes has the effect of what stands before its first zero byte, and a null pointer that of the
empty string. -/
theorem families_agree {arguments arguments' : List String} {calls : List Call}
    (h : read arguments = .ok calls) (hex : SomeExchanged arguments arguments') :
    ((∃ error, read arguments' = .error error) ↔
        ∃ pair ∈ arguments.zip arguments', Truncates pair.1 pair.2) ∧
      (∀ error, read arguments' = .error error →
        ∀ (invocation : Probe.Invocation) (options : CommandLine.Options),
          CommandLine.read invocation.arguments = .ok options → options.calls = arguments' →
            ∀ event ∈ invocation.run.events, ∃ text, event = .stderr text) ∧
      (∀ calls', read arguments' = .ok calls' → ∀ (config : Config) (stdout : Stdout),
        Forall₂ AlikeCalls (calls.zip (replay config stdout calls).1)
            (calls'.zip (replay config stdout calls').1) ∧
          ∀ count, (replay config stdout (calls'.take count)).2 =
            (replay config stdout (calls.take count)).2) ∧
      ∀ (config : Config) (stdout : Stdout) (shape : Shape),
        (∀ content : Bytes,
          let front := content.takeWhile (· ≠ 0)
          Entry.SameEffect (Kind.text .sized shape).operation
            (Kind.text .terminated shape).operation
            ((Entry.sized shape (some front) front.length).invoke config stdout)
            ((Entry.terminated shape (some (content ++ [0]))).invoke config stdout)) ∧
        Entry.SameEffect (Kind.text .sized shape).operation
          (Kind.text .terminated shape).operation
          ((Entry.sized shape (some []) 0).invoke config stdout)
          ((Entry.terminated shape none).invoke config stdout) := by
  have hread := readFrom_exchanged h hex
  refine ⟨?_, ?_, ?_, ?_⟩
  · rcases hread with ⟨htrunc, herror⟩ | ⟨hnone, calls', hcalls', -⟩
    · exact iff_of_true herror htrunc
    · refine iff_of_false ?_ ?_
      · intro ⟨error, herror⟩
        cases hcalls'.symm.trans herror
      · intro ⟨pair, hmem, htrunc⟩
        exact hnone pair hmem htrunc
  · intro error herror invocation options ho hcalls
    rw [← hcalls] at herror
    exact Probe.Invocation.events_run_of_refused ho herror
  · intro calls' hcalls' config stdout
    have hcounters : Forall₂ Counterpart calls calls' := by
      rcases hread with ⟨-, error, herror⟩ | ⟨-, more, hmore, hcounters⟩
      · cases hcalls'.symm.trans herror
      · cases hcalls'.symm.trans hmore
        exact hcounters
    refine ⟨(replay_counterparts hcounters config stdout).1, ?_⟩
    intro count
    exact (replay_counterparts (forall₂_take count hcounters) config stdout).2
  · intro config stdout shape
    refine ⟨?_, ?_⟩
    · intro content
      exact sameEffect_of_terminatedBytes (terminatedBytes_append_zero content) config stdout shape
    · have hnull : Entry.terminatedBytes none = [] := rfl
      exact sameEffect_of_terminatedBytes hnull config stdout shape

/-- The first and the last of three arguments exchanged, on a closed descriptor with a byte held, and
a string that does not survive the exchange. -/
theorem families_agree_on_closed :
    let arguments := ["str:a", "cint:-7", "line:é"]
    let arguments' := ["cstr:a", "cint:-7", "cline:é"]
    let stdout : Stdout := ⟨⟨.closed, none, []⟩, [98]⟩
    (∃ calls calls', read arguments = .ok calls ∧ SomeExchanged arguments arguments' ∧
        read arguments' = .ok calls' ∧
        Forall₂ AlikeCalls (calls.zip (replay ⟨true⟩ stdout calls).1)
          (calls'.zip (replay ⟨true⟩ stdout calls').1)) ∧
      read ["str:a\x00"] = .ok [.text .sized .string "a\x00" (by decide)] ∧
      SomeExchanged ["str:a\x00"] ["cstr:a\x00"] ∧
      ∃ error, read ["cstr:a\x00"] = .error error := by
  intro arguments arguments' stdout
  have hread : read arguments = .ok [.text .sized .string "a" (by decide),
      .integer .terminated (-7), .text .sized .line "é" (by decide)] := rfl
  have hread' : read arguments' = .ok [.text .terminated .string "a" (by decide),
      .integer .terminated (-7), .text .terminated .line "é" (by decide)] := rfl
  have hstring : Exchanged "str:a" "cstr:a" := ⟨.text .sized .string, "a", rfl, rfl⟩
  have hline : Exchanged "line:é" "cline:é" := ⟨.text .sized .line, "é", rfl, rfl⟩
  have hex : SomeExchanged arguments arguments' :=
    .cons (.inr hstring) (.cons (.inl rfl) (.cons (.inr hline) .nil))
  obtain ⟨-, -, hreplay, -⟩ := families_agree hread hex
  have hcut : Truncates "str:a\x00" "cstr:a\x00" :=
    ⟨.string, "a\x00", rfl, rfl, by decide⟩
  have hzero : Exchanged "str:a\x00" "cstr:a\x00" :=
    ⟨.text .sized .string, "a\x00", rfl, rfl⟩
  have hexzero : SomeExchanged ["str:a\x00"] ["cstr:a\x00"] := .cons (.inr hzero) .nil
  have hreadzero : read ["str:a\x00"] = .ok [.text .sized .string "a\x00" (by decide)] := rfl
  obtain ⟨herror, -⟩ := families_agree hreadzero hexzero
  refine ⟨⟨_, _, hread, hex, hread', (hreplay _ hread' ⟨true⟩ stdout).1⟩, hreadzero, hexzero, ?_⟩
  exact herror.mpr ⟨_, List.mem_cons_self, hcut⟩

end Script

end Outlet
