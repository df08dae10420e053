import Outlet.Proofs.Drain

/-!
# Whole calls

What a call with a text answers, and what it leaves, by where the descriptor leads. A call without
a text writes nothing, so that only its flush can fail. A flush behind a failed write finds what
the write left: nothing that is held, or nothing that fits.
-/

namespace Outlet.Stdout

open Descriptor

variable {stdout : Stdout} {message : Message}

theorem send_complete {next : Stdout}
    (he : (writeAll stdout message.parts.dropEmpty).ending = .complete)
    (hs : (writeAll stdout message.parts.dropEmpty).sink = next) :
    send stdout message = (.ofEnds message.text.length none next.drain.1, next.drain.2) := by
  rw [send_of_complete he, hs]
  rfl

theorem send_failed {next : Stdout} {error : IoError}
    (he : (writeAll stdout message.parts.dropEmpty).ending = .failed error)
    (hs : (writeAll stdout message.parts.dropEmpty).sink = next) :
    send stdout message = (.failed (.ofWrite error), next.drain.2) := by
  rw [send_of_failed he, hs]
  rfl

theorem send_of_text_nil (ht : message.text = []) :
    send stdout message = (.ofEnds 0 none stdout.drain.1, stdout.drain.2) := by
  have hw : writeAll stdout message.parts.dropEmpty = ⟨[], .complete, stdout⟩ := by
    rw [(Parts.dropEmpty_eq_nil_iff message.parts).mpr ht, writeAll_nil]
  rw [send_complete (congrArg Written.ending hw) (congrArg Written.sink hw), ht]
  rfl

theorem dropEmpty_parts_ne_nil (ht : message.text ≠ []) : message.parts.dropEmpty ≠ [] :=
  mt (Parts.dropEmpty_eq_nil_iff message.parts).mp ht

theorem send_bad (hb : stdout.descriptor.Bad) (message : Message) :
    send stdout message =
      (if message.text = [] then .wrote 0 else .failed (.ofWrite .badDescriptor),
        ⟨stdout.descriptor, []⟩) := by
  by_cases ht : message.text = []
  · rw [send_of_text_nil ht, drain_bad hb, if_pos ht]
    rfl
  · have hw := writeAll_bad hb (dropEmpty_parts_ne_nil ht)
    rw [send_failed (congrArg Written.ending hw) (congrArg Written.sink hw), if_neg ht,
      drain_of_held_nil rfl]

/-- The answer to a call on a target that fails with an error whenever it is to take bytes. -/
def refusal (error : IoError) (held text : Bytes) : CallResult :=
  if text ≠ [] then .failed (.ofWrite error)
  else if held ≠ [] then .failed (.ofFlush error)
  else .wrote 0

theorem code_refusal (error : IoError) (held text : Bytes) :
    (refusal error held text).code = if text = [] ∧ held = [] then 0 else -1 := by
  by_cases ht : text = []
  · by_cases hh : held = []
    · rw [refusal, ht, hh]
      rfl
    · rw [refusal, if_neg (not_not_intro ht), if_pos hh, if_neg (mt And.right hh)]
      rfl
  · rw [refusal, if_pos ht, if_neg (mt And.left ht)]
    rfl

theorem send_refusing {error : IoError} (hr : stdout.descriptor.Refusing error)
    (message : Message) :
    send stdout message = (refusal error stdout.held message.text, stdout) := by
  unfold refusal
  by_cases ht : message.text = []
  · rw [send_of_text_nil ht, drain_refusing hr, if_neg (not_not_intro ht)]
    by_cases hh : stdout.held = []
    · rw [if_pos hh, if_neg (not_not_intro hh)]
      rfl
    · rw [if_neg hh, if_pos hh]
      rfl
  · have hw := writeAll_refusing hr (Parts.trimmed_dropEmpty _) (dropEmpty_parts_ne_nil ht)
      (length_dropEmpty_parts_le message)
    rw [send_failed (congrArg Written.ending hw) (congrArg Written.sink hw), if_pos ht,
      drain_refusing hr]

/-- A flush of bytes that do not fit changes nothing. -/
theorem snd_drain_of_fitting_nil (ha : stdout.descriptor.Accepting)
    (hf : stdout.descriptor.fitting stdout.held = []) : stdout.drain.2 = stdout := by
  rw [drain_accepting ha, excess, hf, store_nil]
  rfl

/-- A call sends what fits of what is held and its text, and succeeds if that is all. -/
theorem send_accepting (ha : stdout.descriptor.Accepting) (message : Message) :
    send stdout message =
      (if stdout.descriptor.excess (stdout.held ++ message.text) = [] then
          .wrote message.text.length
        else .failed (if message.text = [] then .ofFlush .fileTooLarge else .ofWrite .fileTooLarge),
        ⟨stdout.descriptor.store (stdout.descriptor.fitting (stdout.held ++ message.text)),
          stdout.descriptor.excess stdout.held⟩) := by
  by_cases ht : message.text = []
  · rw [send_of_text_nil ht, drain_accepting ha, ht, List.append_nil, if_pos rfl]
    split <;> rfl
  · obtain ⟨hend, hsink⟩ := writeAll_accepting ha (Parts.trimmed_dropEmpty message.parts)
      (dropEmpty_parts_ne_nil ht) (length_dropEmpty_parts_le message)
    rw [Parts.flatten_dropEmpty, ← Message.text] at hend hsink
    by_cases he : stdout.descriptor.excess (stdout.held ++ message.text) = []
    · have hheld : stdout.descriptor.excess stdout.held = [] := by
        rw [excess_append] at he
        exact (List.append_eq_nil_iff.mp he).1
      rw [if_pos he] at hend ⊢
      rw [send_complete hend hsink, drain_of_held_nil hheld]
      rfl
    · rw [if_neg he] at hend ⊢
      rw [send_failed hend hsink, if_neg ht,
        snd_drain_of_fitting_nil (ha.store _) (fitting_store_of_excess he _)]

theorem send_of_unlimited (ha : stdout.descriptor.Accepting)
    (hu : stdout.descriptor.Unlimited) (message : Message) :
    send stdout message =
      (.wrote message.text.length,
        ⟨stdout.descriptor.store (stdout.held ++ message.text), []⟩) := by
  rw [send_accepting ha, hu.excess, hu.excess, hu.fitting, if_pos rfl]

/-! ## Where the descriptor leads -/

theorem target_send (stdout : Stdout) (message : Message) :
    (send stdout message).2.descriptor.target = stdout.descriptor.target := by
  have hkept := deliver_keeps (fun s : Stdout => s.descriptor.target = stdout.descriptor.target)
    (fun s parts h => (s.target_write parts).trans h) (fun s h => s.target_drain.trans h) rfl
    message
  exact hkept

/-! ## What the writes report -/

/-- No write reports more than it was offered. -/
theorem honest_of_mem_calls (stdout : Stdout) (parts : Parts) :
    ∀ call ∈ (writeAll stdout parts).calls, call.Honest := by
  refine writeAll_calls (fun _ => True) (fun _ _ h => h) ?_ trivial parts
  intro sink parts _
  rw [WriteCall.honest_iff]
  cases ha : (Sink.write sink parts).1 with
  | failed error => exact Nat.zero_le _
  | accepted count => exact ReliableSink.accepted_le sink parts count ha

/-! ## Steps that are calls -/

/-- The form and the message of a step that is a call with a text. A call that is rejected for its
pointer has none. -/
def Step.call? : Step → Option (Form × Message)
  | .entry made => made.message.toOption.map (Form.coded, ·)
  | .call form message => some (form, message)
  | .retarget _ | .write _ | .flush | .print _ => none

/-- The bytes that a step is to write. A call that is rejected for its pointer writes none. -/
def Step.text : Step → Bytes
  | .entry made =>
    match made.message with
    | .ok message => message.text
    | .error _ => []
  | .call _ message => message.text
  | .write parts => parts.flatten
  | .print text => text
  | .retarget _ | .flush => []

theorem Step.text_of_call? {call : Step} {form : Form} (hc : call.call? = some (form, message)) :
    call.text = message.text := by
  cases call with
  | call form' message' =>
    cases hc
    rfl
  | entry made =>
    simp only [Step.call?] at hc
    rw [Step.text]
    cases hm : made.message with
    | error error =>
      rw [hm] at hc
      cases hc
    | ok message' =>
      rw [hm] at hc
      cases hc
      rfl
  | retarget | write | flush | print => cases hc

/-- A call answers with what it sent, in its form. -/
theorem step_of_call? {call : Step} {form : Form} (hc : call.call? = some (form, message))
    (config : Config) (stdout : Stdout) :
    (step config stdout call).1.answer = .reply (form.reply (send stdout message).1) ∧
      (step config stdout call).2 = (send stdout message).2 := by
  cases call with
  | call form' message' =>
    cases hc
    exact ⟨rfl, rfl⟩
  | entry entry =>
    simp only [Step.call?] at hc
    cases hm : entry.message with
    | error error =>
      rw [hm] at hc
      cases hc
    | ok message' =>
      rw [hm] at hc
      cases hc
      have hrun : entry.run stdout = send stdout message := by rw [Entry.run, hm]
      simp [step, perform, Entry.invoke, hrun, Form.reply]
  | retarget | write | flush | print => cases hc

end Outlet.Stdout
