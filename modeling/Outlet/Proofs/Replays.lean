import Outlet.Probe
import Outlet.Proofs.Faults
import Outlet.Proofs.Scripts
import Outlet.Proofs.SideBySide
import Outlet.Script.Replay

/-!
# Replays on a shared standard output

Each call of a script finds standard output as the calls before it and the other processes have left
it. What is reported of the calls is read off the results that they would have returned, and what
they put out is what the descriptor takes of them. Where all texts are taken whole, each call
answers with the length of its own, and on a bad descriptor only the calls without a text succeed.
-/

namespace Outlet

open List WriteCall

/-! ## What a call puts out -/

/-- The target takes the whole of a text. -/
def Descriptor.Takes (descriptor : Descriptor) (text : Bytes) : Prop :=
  descriptor.Accepting ∧ descriptor.excess text = []

theorem Descriptor.takes_of_unlimited {descriptor : Descriptor} (ha : descriptor.Accepting)
    (hu : descriptor.Unlimited) (text : Bytes) : descriptor.Takes text :=
  ⟨ha, hu.excess text⟩

namespace Stdout

open Descriptor

variable {stdout : Stdout} {message : Message}

/-- A loop that ends complete has put out the whole text. -/
theorem takenBy_writeAll_of_complete {parts : Parts} (ht : parts.Trimmed)
    (h : (writeAll stdout parts).ending = .complete) :
    takenBy (writeAll stdout parts).calls = parts.flatten := by
  have hall : reportedBy (writeAll stdout parts).calls = parts.size := by
    have hagrees := writeAll_agrees stdout ht
    rwa [h] at hagrees
  have hhonest := honest_of_mem_calls stdout parts
  rw [takenBy_writeAll (fun _ _ => prefix_rfl) stdout parts hhonest, hall]
  exact take_length

theorem send_of_takes (hh : stdout.held = []) (ht : stdout.descriptor.Takes message.text) :
    send stdout message =
      (.wrote message.text.length, ⟨stdout.descriptor.store message.text, []⟩) := by
  have hfit := (excess_eq_nil_iff _ _).mp ht.2
  rw [send_accepting ht.1, hh, nil_append, ht.2, if_pos rfl, hfit, excess_nil]

/-- A descriptor takes of a call the text of the call, if it takes it whole. -/
theorem takenBySend_of_takes (hh : stdout.held = [])
    (ht : stdout.descriptor.Takes message.text) : stdout.takenBySend message = message.text := by
  have hb : ¬ stdout.descriptor.Bad := fun hb => hb.not_accepting ht.1
  have hbalance := send_balance hb message
  rw [send_of_takes hh ht, append_nil, hh, nil_append, calls_deliver] at hbalance
  -- The null device keeps nothing that would show what it took, so its writes have to.
  have hcomplete : (writeAll stdout message.parts.dropEmpty).ending = .complete := by
    by_cases hp : message.parts.dropEmpty = []
    · rw [hp, writeAll_nil]
    · have hend := (writeAll_accepting ht.1 (Parts.trimmed_dropEmpty message.parts) hp
        (length_dropEmpty_parts_le message)).1
      rwa [hh, nil_append, Parts.flatten_dropEmpty, ← Message.text, ht.2, if_pos rfl] at hend
  rw [hbalance, takenBy_writeAll_of_complete (Parts.trimmed_dropEmpty message.parts) hcomplete,
    Parts.flatten_dropEmpty]
  rfl

/-- What a call adds to the file is what the descriptor takes, unless that forgets it. -/
theorem drop_file_send (hn : stdout.descriptor.target ≠ .null) (message : Message) :
    (send stdout message).2.descriptor.file.drop stdout.descriptor.file.length =
      stdout.takenBySend message := by
  rw [descriptor_send]
  by_cases ht : stdout.descriptor.target = .file
  · rw [store_of_file ht]
    exact drop_left
  · have hnot : ¬ stdout.descriptor.Accepting := fun ha => ha.elim ht hn
    rw [takenBySend_of_not_accepting hnot, store_nil]
    exact drop_length

end Stdout

namespace Script

/-- The bytes that a call is to write. -/
def Call.bytes : Call → Bytes
  | .text _ .string content _ => Utf8.encode content
  | .text _ .line content _ => Utf8.encode content ++ [Bytes.newline]
  | .integer _ value => Decimal.text value

theorem Call.text_message (call : Call) : call.message.text = call.bytes := by
  rcases call with ⟨family, _ | _, content, h⟩ | ⟨family, value⟩
  · exact Message.text_string _
  · exact Message.text_line _
  · exact Message.text_integer _

theorem Call.invoke_eq (call : Call) (config : Config) (stdout : Stdout) :
    call.entry.invoke config stdout =
      (⟨(send stdout call.message).1.code,
        (send stdout call.message).2.descriptor.file.drop stdout.descriptor.file.length,
        (send stdout call.message).1.trace config call.entry.name⟩,
        (send stdout call.message).2) := by
  rw [Entry.invoke, Entry.run, call.message_entry]

end Script

namespace Probe

/-! ## What others do -/

namespace Change

/-- A change after which a target takes whatever it took before. -/
def Harmless : Change → Prop
  | nothing => True
  | readerLeaves => False
  | limit length => length = none

/-- A change leaves the target, or makes of a pipe that is read one that nobody reads. -/
theorem target_apply (descriptor : Descriptor) (change : Change) :
    (change.apply descriptor).target = descriptor.target ∨
      descriptor.target = .file ∧ (change.apply descriptor).target = .brokenPipe := by
  cases change with
  | nothing | limit => exact .inl rfl
  | readerLeaves =>
    rw [apply]
    split
    next ht => exact .inr ⟨ht, rfl⟩
    next => exact .inl rfl

end Change

namespace Stage

variable {stage : Stage}

theorem next_of_steady (h : stage.changes = []) : stage.next = stage := by
  rw [next, h]

theorem held_next (stage : Stage) : stage.next.stdout.held = stage.stdout.held := by
  rw [next]
  split <;> rfl

theorem target_next (stage : Stage) :
    stage.next.stdout.descriptor.target = stage.stdout.descriptor.target ∨
      stage.stdout.descriptor.target = .file ∧
        stage.next.stdout.descriptor.target = .brokenPipe := by
  rw [next]
  split
  · exact .inl rfl
  · exact Change.target_apply _ _

theorem bad_next (h : stage.stdout.descriptor.Bad) : stage.next.stdout.descriptor.Bad := by
  rcases stage.target_next with ht | ⟨ht, -⟩
  · rwa [Descriptor.Bad, ht]
  · exact absurd (.inl ht) h.not_accepting

theorem target_next_ne_null (h : stage.stdout.descriptor.target ≠ .null) :
    stage.next.stdout.descriptor.target ≠ .null := by
  rcases stage.target_next with ht | ⟨-, ht⟩
  · rwa [ht]
  · rw [ht]
    decide

/-! ## One call -/

/-- What the next call answers before that is collapsed into a code. -/
def send (stage : Stage) (message : Message) : CallResult × Stage :=
  let (result, stdout) := Outlet.send stage.next.stdout message
  (result, { stage.next with stdout })

/-- A call reports what it answers, what it adds to the file and its trace. -/
theorem call_eq (config : Config) (stage : Stage) (call : Script.Call) :
    stage.call config call =
      (⟨(stage.send call.message).1.code,
        (stage.send call.message).2.stdout.descriptor.file.drop
          stage.next.stdout.descriptor.file.length,
        (stage.send call.message).1.trace config call.entry.name⟩,
        (stage.send call.message).2) := by
  rw [Stage.call, call.invoke_eq]
  rfl

theorem target_send (stage : Stage) (message : Message) :
    (stage.send message).2.stdout.descriptor.target = stage.next.stdout.descriptor.target :=
  stage.next.stdout.target_send message

theorem send_of_takes {message : Message} (hh : stage.stdout.held = [])
    (ht : stage.next.stdout.descriptor.Takes message.text) :
    stage.send message =
      (.wrote message.text.length,
        ⟨⟨stage.next.stdout.descriptor.store message.text, []⟩, stage.next.changes⟩) := by
  rw [send, Stdout.send_of_takes (stage.held_next.trans hh) ht]

theorem send_bad (h : stage.stdout.descriptor.Bad) (message : Message) :
    stage.send message =
      (if message.text = [] then .wrote 0 else .failed (.ofWrite .badDescriptor),
        ⟨⟨stage.next.stdout.descriptor, []⟩, stage.next.changes⟩) := by
  rw [send, Stdout.send_bad (bad_next h)]

/-! ## All calls of a script -/

variable {calls : List Script.Call}

/-- What the calls of a script answer before their results are collapsed into codes. -/
def results (stage : Stage) (calls : List Script.Call) : List CallResult × Stage :=
  Session.run (fun stage call => stage.send call.message) stage calls

/-- What the descriptor takes in the course of each call of a script. -/
def receipts (stage : Stage) (calls : List Script.Call) : List Bytes :=
  (Session.run (fun stage (call : Script.Call) =>
    (stage.next.stdout.takenBySend call.message, (stage.send call.message).2)) stage calls).1

/-- The codes of a script are those of its results, and both ways the calls leave the same. -/
theorem replay_results (config : Config) (stage : Stage) (calls : List Script.Call) :
    (stage.replay config calls).1.map Entry.Report.code =
        (stage.results calls).1.map CallResult.code ∧
      (stage.replay config calls).2 = (stage.results calls).2 := by
  have hstep : ∀ (state state' : Stage) (call : Script.Call), state = state' →
      (state.call config call).1.code = (state'.send call.message).1.code ∧
        (state.call config call).2 = (state'.send call.message).2 := by
    rintro state _ call rfl
    rw [call_eq]
    exact ⟨rfl, rfl⟩
  exact Session.run_map_eq hstep rfl calls

/-- A call is traced by what its result says and the name of its entry point. -/
theorem map_trace_replay (config : Config) (stage : Stage) (calls : List Script.Call) :
    (stage.replay config calls).1.map Entry.Report.trace =
      zipWith (fun call result => result.trace config call.entry.name) calls
        (stage.results calls).1 := by
  induction calls generalizing stage with
  | nil => rfl
  | cons call rest ih =>
    have hrest := ih (stage.send call.message).2
    rw [replay, results] at hrest ⊢
    rw [Session.run_cons, Session.run_cons, map_cons, zipWith_cons_cons, call_eq, hrest]

/-- A trace that is reported is that of some result of the script. -/
theorem trace_of_mem_replay {config : Config} {report : Entry.Report}
    (h : report ∈ (stage.replay config calls).1) :
    ∃ call ∈ calls, ∃ result ∈ (stage.results calls).1,
      report.trace = result.trace config call.entry.name := by
  have hmem := mem_map_of_mem (f := Entry.Report.trace) h
  rw [map_trace_replay, ← map_uncurry_zip_eq_zipWith] at hmem
  obtain ⟨⟨call, result⟩, hpair, htrace⟩ := mem_map.mp hmem
  obtain ⟨hcall, hresult⟩ := of_mem_zip hpair
  exact ⟨call, hcall, result, hresult, htrace.symm⟩

/-- Under two settings for tracing the same is seen of the calls on standard output. -/
theorem map_out_replay_eq (config config' : Config) (stage : Stage) (calls : List Script.Call) :
    (stage.replay config calls).1.map Entry.Report.out =
      (stage.replay config' calls).1.map Entry.Report.out := by
  have hstep : ∀ (state state' : Stage) (call : Script.Call), state = state' →
      (state.call config call).1.out = (state'.call config' call).1.out ∧
        (state.call config call).2 = (state'.call config' call).2 := by
    rintro state _ call rfl
    rw [call_eq, call_eq]
    exact ⟨rfl, rfl⟩
  exact (Session.run_map_eq hstep rfl calls).1

/-- What is seen of the calls is what the descriptor takes, unless that forgets it. -/
theorem map_out_replay (hn : stage.stdout.descriptor.target ≠ .null) (config : Config)
    (calls : List Script.Call) :
    (stage.replay config calls).1.map Entry.Report.out = stage.receipts calls := by
  have hstep : ∀ (state state' : Stage) (call : Script.Call),
      state = state' ∧ state.stdout.descriptor.target ≠ .null →
        (state.call config call).1.out = id (state'.next.stdout.takenBySend call.message) ∧
          (state.call config call).2 = (state'.send call.message).2 ∧
            (state.call config call).2.stdout.descriptor.target ≠ .null := by
    rintro state _ call ⟨rfl, hn⟩
    have hnext := target_next_ne_null hn
    rw [call_eq, target_send]
    exact ⟨Stdout.drop_file_send hnext call.message, rfl, hnext⟩
  rw [← map_id (stage.receipts calls)]
  exact (Session.run_map_eq hstep ⟨rfl, hn⟩ calls).1

/-- Where nobody else does anything, the calls are replayed on standard output alone. -/
theorem replay_of_steady (h : stage.changes = []) (config : Config) (calls : List Script.Call) :
    (stage.replay config calls).1 = (Script.replay config stage.stdout calls).1 := by
  induction calls generalizing stage with
  | nil => rfl
  | cons call rest ih =>
    have hnext := next_of_steady h
    have hstays : (stage.call config call).2.changes = [] := by
      rw [Stage.call, hnext]
      exact h
    have hrest := ih hstays
    rw [replay, Script.replay] at hrest ⊢
    rw [Session.run_cons, Session.run_cons, hrest, Stage.call, hnext]

/-! ### Where all texts are taken -/

/-- Every call of a script finds a target that takes the whole of its text. -/
def Takes (stage : Stage) : List Script.Call → Prop
  | [] => True
  | call :: rest =>
    stage.next.stdout.descriptor.Takes call.message.text ∧ (stage.send call.message).2.Takes rest

theorem results_of_takes (hh : stage.stdout.held = []) (ht : stage.Takes calls) :
    (stage.results calls).1 = calls.map fun call => .wrote call.bytes.length := by
  induction calls generalizing stage with
  | nil => rfl
  | cons call rest ih =>
    obtain ⟨hfirst, hmore⟩ := ht
    have hsend := send_of_takes hh hfirst
    have hheld : (stage.send call.message).2.stdout.held = [] := by rw [hsend]
    have hrest := ih hheld hmore
    rw [results] at hrest ⊢
    rw [Session.run_cons, map_cons, hrest, hsend, call.text_message]

/-- Where every text is taken whole, each call puts out its own. -/
theorem receipts_of_takes (hh : stage.stdout.held = []) (ht : stage.Takes calls) :
    stage.receipts calls = calls.map Script.Call.bytes := by
  induction calls generalizing stage with
  | nil => rfl
  | cons call rest ih =>
    obtain ⟨hfirst, hmore⟩ := ht
    have hheld : (stage.send call.message).2.stdout.held = [] := by
      rw [send_of_takes hh hfirst]
    have hrest := ih hheld hmore
    rw [receipts] at hrest ⊢
    rw [Session.run_cons, map_cons, hrest,
      Stdout.takenBySend_of_takes (stage.held_next.trans hh) hfirst, call.text_message]

/-- Standard output that takes whatever it is given, and others leave it so. -/
structure Open (stage : Stage) : Prop where
  accepting : stage.stdout.descriptor.Accepting
  unlimited : stage.stdout.descriptor.Unlimited
  harmless : ∀ change ∈ stage.changes, change.Harmless

theorem Open.next (h : stage.Open) : stage.next.Open := by
  obtain ⟨stdout, changes⟩ := stage
  cases changes with
  | nil => exact h
  | cons change rest =>
    obtain ⟨hfirst, hrest⟩ := forall_mem_cons.mp h.harmless
    cases change with
    | nothing => exact ⟨h.accepting, h.unlimited, hrest⟩
    | readerLeaves => exact hfirst.elim
    | limit length => exact ⟨h.accepting, .inr hfirst, hrest⟩

theorem Open.takes (h : stage.Open) (hh : stage.stdout.held = []) (calls : List Script.Call) :
    stage.Takes calls := by
  induction calls generalizing stage with
  | nil => trivial
  | cons call rest ih =>
    have hnext := h.next
    have hfirst := Descriptor.takes_of_unlimited hnext.accepting hnext.unlimited call.message.text
    refine ⟨hfirst, ?_⟩
    rw [send_of_takes hh hfirst]
    exact ih ⟨hnext.accepting.store _, hnext.unlimited.store _, hnext.harmless⟩ rfl

/-! ### Where the descriptor is bad -/

/-- On a bad descriptor a call fails if it has something to write. -/
theorem results_bad (h : stage.stdout.descriptor.Bad) (calls : List Script.Call) :
    (stage.results calls).1 = calls.map fun call =>
      if call.bytes = [] then .wrote 0 else .failed (.ofWrite .badDescriptor) := by
  refine Session.run_eq_map (fun stage : Stage => stage.stdout.descriptor.Bad) ?_ h calls
  intro state call hbad
  rw [send_bad hbad, call.text_message]
  exact ⟨rfl, bad_next hbad⟩

/-- A bad descriptor takes nothing. -/
theorem receipts_bad (h : stage.stdout.descriptor.Bad) (calls : List Script.Call) :
    stage.receipts calls = calls.map fun _ => [] := by
  refine Session.run_eq_map (fun stage : Stage => stage.stdout.descriptor.Bad) ?_ h calls
  intro state call hbad
  have hnone := Stdout.takenBySend_of_not_accepting (bad_next hbad).not_accepting call.message
  rw [send_bad hbad]
  exact ⟨hnone.symm, bad_next hbad⟩

end Stage

end Probe

end Outlet
