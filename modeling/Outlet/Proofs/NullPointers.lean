import Outlet.Proofs.DrainFirst
import Outlet.Proofs.SideBySide

/-!
# Null pointers

A null pointer with no length stands for the empty message. With any other length the call is
rejected: it flushes, as a call without a text does, and fails for its pointer whatever the flush
answers. Standard output cannot tell the two apart, so in a session the one may stand for the other.
-/

namespace Outlet

open List WriteCall Descriptor

/-! ## Flushes -/

/-- What is added to the file, seen behind what the file held. -/
theorem Descriptor.drop_file_store (descriptor : Descriptor) (bytes : Bytes) :
    (descriptor.store bytes).file.drop descriptor.file.length =
      if descriptor.target = .file then bytes else [] := by
  by_cases ht : descriptor.target = .file
  · rw [store_of_file ht, drop_left, if_pos ht]
  · rw [store_of_ne_file ht, drop_length, if_neg ht]

/-- A flush adds nothing to the file but bytes that were held. -/
theorem Stdout.drop_file_drain_prefix (stdout : Stdout) :
    stdout.drain.2.descriptor.file.drop stdout.descriptor.file.length <+: stdout.held := by
  rw [descriptor_drain, drop_file_store]
  split
  · exact stdout.takenBy_drainCalls_prefix
  · exact nil_prefix

namespace Entry

variable {shape : Shape} {length : Nat}

/-! ## One call -/

/-- What is found at a null pointer without a length, is found at any pointer without one. -/
theorem message_sized_zero (shape : Shape) (memory : Option Bytes) :
    (Entry.sized shape memory 0).message = .ok (.bytes shape []) := by
  cases memory <;> rfl

theorem message_sized_null (shape : Shape) (hl : 0 < length) :
    (Entry.sized shape none length).message = .error (.nullMessage length) := by
  cases length with
  | zero => exact absurd hl (Nat.lt_irrefl 0)
  | succ length => rfl

theorem invoke_sized_zero (config : Config) (stdout : Stdout) (shape : Shape) (memory : Bytes) :
    (Entry.sized shape none 0).invoke config stdout =
      (Entry.sized shape (some memory) 0).invoke config stdout := by
  have hname : (Entry.sized shape none 0).name = (Entry.sized shape (some memory) 0).name := by
    cases shape <;> rfl
  rw [invoke, invoke, run, run, message_sized_zero, message_sized_zero, hname]

/-- A null pointer with a length fails the call, and standard output is flushed. -/
theorem run_null (shape : Shape) (hl : 0 < length) (stdout : Stdout) :
    (Entry.sized shape none length).run stdout =
      (.failed (.nullMessage length), (Sink.flush stdout).2) := by
  rw [run, message_sized_null shape hl]
  rfl

theorem trace_nullMessage (config : Config) (name : String) (length : Nat) :
    (CallResult.failed (.nullMessage length)).trace config name =
      config.trace (name ++ " failed: null message pointer with length " ++ toString length ++
        " (code 4)") := by
  have hcode : toString CallError.argumentCode = "4" := rfl
  have hwords (digits : String) :
      name ++ " failed: " ++ ("null message pointer with length " ++ digits) ++ " (code " ++ "4" ++
          ")" =
        name ++ " failed: null message pointer with length " ++ digits ++ " (code 4)" := by
    apply String.toList_injective
    simp
  rw [← hwords, ← hcode]
  rfl

theorem invoke_null (config : Config) (shape : Shape) (hl : 0 < length) (stdout : Stdout) :
    (Entry.sized shape none length).invoke config stdout =
      (⟨-1, (Sink.flush stdout).2.descriptor.file.drop stdout.descriptor.file.length,
        config.trace ((Entry.sized shape none length).name ++
          " failed: null message pointer with length " ++ toString length ++ " (code 4)")⟩,
        (Sink.flush stdout).2) := by
  rw [← trace_nullMessage, invoke, run_null shape hl]
  rfl

/-- An empty string is flushed, and fails if its flush does. -/
theorem run_empty (stdout : Stdout) (memory : Bytes) :
    (Entry.sized .string (some memory) 0).run stdout =
      (.ofEnds 0 none (Sink.flush stdout).1, (Sink.flush stdout).2) := by
  rw [run, message_sized_zero]
  exact Stdout.send_of_text_nil (Message.text_string [])

theorem invoke_empty (config : Config) (stdout : Stdout) (memory : Bytes) :
    ((Entry.sized .string (some memory) 0).invoke config stdout).1.out =
        (Sink.flush stdout).2.descriptor.file.drop stdout.descriptor.file.length ∧
      ((Entry.sized .string (some memory) 0).invoke config stdout).2 = (Sink.flush stdout).2 := by
  rw [invoke, run_empty]
  exact ⟨rfl, rfl⟩

end Entry

namespace Stdout

/-! ## Steps and runs -/

/-- A call that is rejected for its pointer, and a call without a text in its place. -/
def Step.Emptied (next next' : Step) : Prop :=
  ∃ shape length form message, 0 < length ∧ next = .entry (.sized shape none length) ∧
    next'.call? = some (form, message) ∧ message.text = []

/-- A rejected call and a call without a text, which put out the same. -/
def Step.EmptiedAlike (made made' : Step × Report) : Prop :=
  Emptied made.1 made'.1 ∧ made'.2.out = made.2.out

theorem step_emptied {next next' : Step} (h : next.Emptied next') (config : Config)
    (stdout : Stdout) :
    (step config stdout next').1.out = (step config stdout next).1.out ∧
      (step config stdout next').2 = (step config stdout next).2 := by
  obtain ⟨shape, length, form, message, hl, rfl, hc, ht⟩ := h
  have hempty : (step config stdout next').2 = stdout.drain.2 := by
    rw [(step_of_call? hc config stdout).2, send_of_text_nil ht]
  have hnull : (step config stdout (.entry (.sized shape none length))).2 = stdout.drain.2 :=
    congrArg Prod.snd (Entry.run_null shape hl stdout)
  have hout (next : Step) : (step config stdout next).1.out =
      (step config stdout next).2.descriptor.file.drop stdout.descriptor.file.length := rfl
  rw [hout, hout, hempty, hnull]
  exact ⟨rfl, rfl⟩

theorem run_emptied (config : Config) (stdout : Stdout) {steps steps' : List Step}
    (h : Forall₂ (Session.EitherWay Step.Emptied) steps steps') :
    Forall₂ (Session.EitherWay Step.EmptiedAlike) (steps.zip (run config stdout steps).1)
        (steps'.zip (run config stdout steps').1) ∧
      (run config stdout steps').2 = (run config stdout steps).2 := by
  refine Session.run_eitherWay (fun _ => True) (fun _ _ h => h) ?_ trivial h
  intro stdout next next' _ hemptied
  obtain ⟨hout, hnext⟩ := step_emptied hemptied config stdout
  exact ⟨⟨hemptied, hout⟩, hnext⟩

/-- A null pointer without a length is the empty message. With a length it is reported, whatever the
flush answers, and adds nothing but what the flush of an empty string adds, which was held. In a
session any calls that are rejected so may be exchanged for calls without a text and back; no other
step reports anything else, and everything is left the same. -/
theorem null_pointer_only_flushes (config : Config) (stdout : Stdout) :
    (∀ (shape : Shape) (memory : Bytes),
      (Entry.sized shape none 0).invoke config stdout =
        (Entry.sized shape (some memory) 0).invoke config stdout) ∧
      (∀ (shape : Shape) (memory : Bytes) (length : Nat), 0 < length →
        let rejected := Entry.sized shape none length
        let empty := Entry.sized .string (some memory) 0
        (rejected.run stdout).1 = .failed (.nullMessage length) ∧
          (rejected.invoke config stdout).1.code = -1 ∧
          (rejected.invoke config stdout).1.trace =
            config.trace (rejected.name ++ " failed: null message pointer with length " ++
              toString length ++ " (code 4)") ∧
          (rejected.invoke config stdout).1.out = (empty.invoke config stdout).1.out ∧
          (rejected.invoke config stdout).1.out <+: stdout.held ∧
          (rejected.invoke config stdout).2 = (empty.invoke config stdout).2 ∧
          (rejected.invoke config stdout).2 = (Sink.flush stdout).2 ∧
          ∀ error, (Sink.flush stdout).1 = .failed error →
            (empty.run stdout).1 = .failed (.flush error.kind error.message)) ∧
      ∀ steps steps' : List Step, Forall₂ (Session.EitherWay Step.Emptied) steps steps' →
        Forall₂ (Session.EitherWay Step.EmptiedAlike) (steps.zip (run config stdout steps).1)
            (steps'.zip (run config stdout steps').1) ∧
          (run config stdout steps').2 = (run config stdout steps).2 := by
  refine ⟨Entry.invoke_sized_zero config stdout, ?_, fun _ _ h => run_emptied config stdout h⟩
  intro shape memory length hl rejected empty
  obtain ⟨hout, hnext⟩ := Entry.invoke_empty config stdout memory
  rw [Entry.run_null shape hl, Entry.invoke_null config shape hl, Entry.run_empty, hout, hnext]
  refine ⟨rfl, rfl, rfl, rfl, stdout.drop_file_drain_prefix, rfl, rfl, ?_⟩
  intro error he
  rw [he]
  rfl

/-- A null pointer on a full device, whose flush fails for a reason of its own, and a call without a
text in its place in front of a flush that succeeds. -/
theorem null_pointer_only_flushes_on_full :
    let full : Stdout := ⟨⟨.full, none, []⟩, [97]⟩
    let rejected : Entry := .sized .line none 3
    let steps : List Step := [.entry rejected, .retarget .file, .flush]
    let steps' : List Step := [.call .typed (.bytes .string []), .retarget .file, .flush]
    (Sink.flush full).1 = .failed .noSpace ∧
      (rejected.run full).1 = .failed (.nullMessage 3) ∧
      (rejected.invoke ⟨true⟩ full).1.trace =
        "[stlib runtime] stlib_write_line failed: null message pointer with length 3 (code 4)\n" ∧
      (rejected.invoke ⟨true⟩ full).2 = full ∧
      ((Entry.sized .string (some [120]) 0).run full).1 =
        .failed (.flush .storageFull "No space left on device (os error 28)") ∧
      Forall₂ (Session.EitherWay Step.Emptied) steps steps' ∧
      (run ⟨true⟩ full steps').2 = (run ⟨true⟩ full steps).2 := by
  intro full rejected steps steps'
  have hflush : Sink.flush full = (.failed .noSpace, full) := by
    change full.drain = _
    rw [drain_refusing (.inl ⟨rfl, rfl⟩)]
    rfl
  have hsteps : Forall₂ (Session.EitherWay Step.Emptied) steps steps' :=
    .cons (.inr (.inl ⟨.line, 3, .typed, _, by decide, rfl, rfl, rfl⟩)) <|
      .cons (.inl rfl) (.cons (.inl rfl) .nil)
  obtain ⟨-, hcall, hrun⟩ := null_pointer_only_flushes ⟨true⟩ full
  obtain ⟨hfailed, -, htrace, -, -, -, hnext, hempty⟩ := hcall .line [120] 3 (by decide)
  rw [hflush] at hnext hempty
  exact ⟨congrArg Prod.fst hflush, hfailed, htrace.trans (by decide), hnext, hempty _ rfl, hsteps,
    (hrun steps steps' hsteps).2⟩

end Stdout

end Outlet
