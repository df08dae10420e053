import Outlet.Proofs.Ledger

/-!
# Calls on targets that fail

A call on a target that takes no bytes fails if it has a text, and otherwise if there are bytes held
back that it cannot send. A bad descriptor is the exception: what is held is then dropped, and a
call without a text succeeds all the same. No other call that succeeds drops bytes.
-/

namespace Outlet.Stdout

open WriteCall Descriptor

variable {stdout : Stdout}

/-! ## What a call drops -/

theorem takenBy_drainCalls_of_not_accepting (h : ¬ stdout.descriptor.Accepting) :
    takenBy stdout.drainCalls = [] := by
  change takenBy stdout.drained.calls = []
  fun_induction drained stdout with
  | case1 => rfl
  | case2 stdout hh call next count ha ih =>
    have hnext : ¬ next.Accepting := by rwa [Accepting, Descriptor.target_write]
    rw [Logged.after, takenBy_cons, taken_write_of_not_accepting h, ih hnext]
    rfl
  | case3 stdout hh call next ha | case4 stdout hh call next error ha =>
    rw [takenBy_cons, taken_write_of_not_accepting h]
    rfl

theorem takenBy_writeCalls_of_not_accepting (h : ¬ stdout.descriptor.Accepting) (parts : Parts) :
    takenBy (stdout.writeCalls parts) = [] := by
  have hnext : ¬ stdout.drain.2.descriptor.Accepting := by rwa [Accepting, target_drain]
  rcases stdout.write_cases parts with ⟨error, -, -, hc⟩ | ⟨-, -, hc⟩
  · rw [hc, takenBy_drainCalls_of_not_accepting h]
  · rw [hc, takenBy_append, takenBy_drainCalls_of_not_accepting h, takenBy_cons,
      taken_write_of_not_accepting hnext]
    rfl

/-- A target that does not take bytes takes none of a call. -/
theorem takenBySend_of_not_accepting (h : ¬ stdout.descriptor.Accepting) (message : Message) :
    stdout.takenBySend message = [] := by
  have hstart : ¬ (Ledger.mk stdout []).stdout.descriptor.Accepting ∧
      (Ledger.mk stdout []).taken = [] :=
    ⟨h, rfl⟩
  have hkept := deliver_keeps
    (fun ledger : Ledger => ¬ ledger.stdout.descriptor.Accepting ∧ ledger.taken = []) ?_ ?_ hstart
    message
  · exact hkept.2
  · rintro ledger parts ⟨hk, ht⟩
    constructor
    · rwa [Accepting, Ledger.target_write]
    · rw [Ledger.taken_write, ht, takenBy_writeCalls_of_not_accepting hk]
      rfl
  · rintro ledger ⟨hk, ht⟩
    constructor
    · rwa [Accepting, Ledger.target_flush]
    · rw [Ledger.taken_flush, ht, takenBy_drainCalls_of_not_accepting hk]
      rfl

/-- Some bytes that were held before a call are neither taken nor held behind it. -/
def Drops (stdout : Stdout) (message : Message) : Prop :=
  ¬ stdout.held <+: stdout.takenBySend message ++ (send stdout message).2.held

/-- A call drops bytes exactly if there are some and the descriptor is bad. -/
theorem drops_iff (stdout : Stdout) (message : Message) :
    stdout.Drops message ↔ stdout.descriptor.Bad ∧ stdout.held ≠ [] := by
  by_cases hb : stdout.descriptor.Bad
  · rw [Drops, takenBySend_of_not_accepting hb.not_accepting, send_bad hb, List.append_nil,
      List.prefix_nil]
    exact ⟨fun h => ⟨hb, h⟩, And.right⟩
  · rw [Drops, send_balance hb]
    constructor
    · intro h
      exact absurd (List.prefix_append _ _) h
    · intro h
      exact absurd h.1 hb

theorem code_send_bad (hb : stdout.descriptor.Bad) (message : Message) :
    (send stdout message).1.code = if message.text = [] then 0 else -1 := by
  rw [send_bad hb]
  split <;> rfl

/-- A call that succeeds drops bytes only behind a bad descriptor, and only without a text. -/
theorem succeeds_and_drops_iff (stdout : Stdout) (message : Message) :
    0 ≤ (send stdout message).1.code ∧ stdout.Drops message ↔
      message.text = [] ∧ stdout.descriptor.Bad ∧ stdout.held ≠ [] := by
  rw [drops_iff]
  constructor
  · rintro ⟨hcode, hb, hh⟩
    rw [code_send_bad hb] at hcode
    by_cases ht : message.text = []
    · exact ⟨ht, hb, hh⟩
    · rw [if_neg ht] at hcode
      exact absurd hcode (by decide)
  · rintro ⟨ht, hb, hh⟩
    rw [code_send_bad hb, if_pos ht]
    exact ⟨Int.le_refl 0, hb, hh⟩

/-! ## What a call answers -/

/-- A call on a bad descriptor fails exactly if it has a text, and a call on a device without space
or a pipe that nobody reads fails exactly if there is a text or something held. Over all targets,
a call that succeeds drops bytes only if the descriptor is bad and the text is empty. -/
theorem call_reports_fault (config : Config) (stdout : Stdout) {call : Step} {form : Form}
    {message : Message} (hc : call.call? = some (form, message)) :
    (stdout.descriptor.Bad →
      let result : CallResult :=
        if message.text = [] then .wrote 0 else .failed (.ofWrite .badDescriptor)
      (step config stdout call).1.answer = .reply (form.reply result) ∧
        (result.code = if message.text = [] then 0 else -1) ∧
        (step config stdout call).2 = ⟨stdout.descriptor, []⟩) ∧
    (∀ error, stdout.descriptor.Refusing error →
      let result := refusal error stdout.held message.text
      (step config stdout call).1.answer = .reply (form.reply result) ∧
        (result.code = if message.text = [] ∧ stdout.held = [] then 0 else -1) ∧
        (step config stdout call).2 = stdout) ∧
    (step config stdout call).1.answer = .reply (form.reply (send stdout message).1) ∧
    (step config stdout call).2 = (send stdout message).2 ∧
    (0 ≤ (send stdout message).1.code ∧ stdout.Drops message ↔
      message.text = [] ∧ stdout.descriptor.Bad ∧ stdout.held ≠ []) := by
  obtain ⟨hanswer, hnext⟩ := step_of_call? hc config stdout
  rw [hanswer, hnext]
  refine ⟨?_, ?_, ?_⟩
  · intro hb result
    have hcode := code_send_bad hb message
    rw [send_bad hb] at hcode ⊢
    exact ⟨rfl, hcode, rfl⟩
  · intro error hr result
    rw [send_refusing hr]
    exact ⟨rfl, code_refusal _ _ _, rfl⟩
  · exact ⟨rfl, rfl, succeeds_and_drops_iff stdout message⟩

/-- A text and then none on a bad descriptor behind bytes held back, and none on a full device. -/
theorem call_reports_fault_held :
    let line : Step := .call .typed (.bytes .line [])
    let empty : Step := .entry (.terminated .string none)
    let closed : Stdout := ⟨⟨.closed, none, []⟩, [97]⟩
    let full : Stdout := ⟨⟨.full, none, []⟩, [97]⟩
    line.call? = some (.typed, .bytes .line []) ∧
      empty.call? = some (.coded, .bytes .string []) ∧
      (step ⟨true⟩ closed line).1.answer =
        .reply (.result (.failed (.ofWrite .badDescriptor))) ∧
      (step ⟨true⟩ closed empty).1.answer = .reply (.code 0) ∧
      (step ⟨true⟩ closed empty).2 = ⟨⟨.closed, none, []⟩, []⟩ ∧
      closed.Drops (.bytes .string []) ∧
      (step ⟨true⟩ full empty).1.answer = .reply (.code (-1)) ∧
      (step ⟨true⟩ full empty).2 = full := by
  intro line empty closed full
  have hline : line.call? = some (.typed, .bytes .line []) := rfl
  have hempty : empty.call? = some (.coded, .bytes .string []) := rfl
  have hclosed : closed.descriptor.Bad := .inl rfl
  have hfull : full.descriptor.Refusing .noSpace := .inl ⟨rfl, rfl⟩
  obtain ⟨hfails, -, -⟩ := (call_reports_fault ⟨true⟩ closed hline).1 hclosed
  obtain ⟨hbad, -, -, -, hdrops⟩ := call_reports_fault ⟨true⟩ closed hempty
  obtain ⟨hzero, -, hnext⟩ := hbad hclosed
  obtain ⟨hminus, -, hstays⟩ := (call_reports_fault ⟨true⟩ full hempty).2.1 _ hfull
  exact ⟨hline, hempty, hfails, hzero, hnext, (hdrops.mpr ⟨rfl, hclosed, by decide⟩).2, hminus,
    hstays⟩

end Outlet.Stdout
