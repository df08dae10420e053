import Mathlib.Data.List.TakeDrop
import Outlet.Proofs.ExactlyOnce
import Outlet.Proofs.SideBySide

/-!
# How a sink slices the bytes

A sink without a script takes what it has room for, in slices: only the first part of an offer, or
no more than a chunk at once. The loop goes on behind each slice, so that in the end the sink has
taken the front of the text, up to the limit, and the slices show in nothing but the list of
writes. Over a session without bytes put past the calls the sink has taken the front of all texts.
-/

namespace Outlet

namespace ScriptedSink

/-- A sink that follows no script, takes some byte of every offer that it has room for, and is not
interrupted for ever. -/
structure Steady (sink : ScriptedSink) : Prop where
  unscripted : sink.writes = []
  chunk_ne_zero : sink.chunk ≠ some 0
  patient : sink.Patient

/-- The front of a text that there is room for. -/
def fitting (sink : ScriptedSink) (text : Bytes) : Bytes :=
  match sink.room? with
  | some room => text.take room
  | none => text

/-- What a call fails with if there is no room for all of its text. -/
def fullError (sink : ScriptedSink) : IoError := sink.onFull.getD (.plain .writeZero)

variable {sink : ScriptedSink} {parts : Parts}

/-! ## Room -/

theorem fitting_of_full (hr : sink.room? = some 0) (text : Bytes) : sink.fitting text = [] := by
  rw [fitting, hr]
  exact List.take_zero

@[simp] theorem fitting_nil (sink : ScriptedSink) : sink.fitting [] = [] := by
  unfold fitting
  split
  · exact List.take_nil
  · rfl

@[simp] theorem append_nil (sink : ScriptedSink) : sink.append [] = sink := by
  rw [append, List.append_nil]

theorem append_append (sink : ScriptedSink) (first second : Bytes) :
    (sink.append first).append second = sink.append (first ++ second) := by
  simp only [append, List.append_assoc]

theorem room?_append (sink : ScriptedSink) (bytes : Bytes) :
    (sink.append bytes).room? = sink.room?.map (· - bytes.length) := by
  simp only [room?, append, List.length_append, Option.map_map]
  congr 1
  funext limit
  simp only [Function.comp_apply]
  omega

/-- What fits of a text is a slice that fits, and what fits behind it of the rest. -/
theorem fitting_split {count : Nat} {text : Bytes} (hc : count ≤ text.length)
    (hr : ∀ room, sink.room? = some room → count ≤ room) :
    sink.fitting text =
      text.take count ++ (sink.append (text.take count)).fitting (text.drop count) := by
  have hlen : (text.take count).length = count := List.length_take_of_le hc
  unfold fitting
  rw [room?_append, hlen]
  cases h : sink.room? with
  | none => exact (List.take_append_drop count text).symm
  | some room =>
    have hle := hr room h
    rw [Option.map_some, ← List.take_add, Nat.add_sub_cancel' hle]

theorem fitting_eq_iff_split {count : Nat} {text : Bytes} (hc : count ≤ text.length)
    (hr : ∀ room, sink.room? = some room → count ≤ room) :
    sink.fitting text = text ↔
      (sink.append (text.take count)).fitting (text.drop count) = text.drop count := by
  have hall := List.take_append_drop count text
  rw [fitting_split hc hr]
  constructor
  · intro h
    exact List.append_cancel_left (h.trans hall.symm)
  · intro h
    rw [h, hall]

/-! ## One write -/

/-- What is usually taken of an offer is a slice of it that there is room for, and it is empty only
if there is no room. -/
theorem usualAnswer_cases (sink : ScriptedSink) (offer : Bytes) :
    (∃ error, sink.usualAnswer offer = .failed error ∧ sink.onFull = some error ∧
        sink.room? = some 0) ∨
      ∃ count, sink.usualAnswer offer = .accepted count ∧ count ≤ offer.length ∧
        (∀ room, sink.room? = some room → count ≤ room) ∧
        (count = 0 → offer ≠ [] → sink.chunk ≠ some 0 → sink.onFull = none ∧ sink.room? = some 0) := by
  have hslice : offer ≠ [] → sink.chunk ≠ some 0 →
      0 < min offer.length (sink.chunk.getD offer.length) := by
    intro ho hc
    have hpos := List.length_pos_iff.mpr ho
    cases h : sink.chunk with
    | none => simpa using hpos
    | some chunk =>
      have hne : chunk ≠ 0 := fun hz => hc (by rw [h, hz])
      rw [Option.getD_some]
      omega
  rw [usualAnswer]
  split
  next hr hf => exact .inl ⟨_, rfl, hf, hr⟩
  next room hr hfull =>
    refine .inr ⟨_, rfl, by omega, ?_, ?_⟩
    · intro room' hr'
      obtain rfl := Option.some.inj (hr.symm.trans hr')
      exact Nat.min_le_right _ _
    · intro hz ho hc
      have hslice := hslice ho hc
      obtain rfl : room = 0 := by omega
      exact ⟨Option.eq_none_iff_forall_ne_some.mpr fun error he => hfull error he rfl, hr⟩
  next hr =>
    refine .inr ⟨_, rfl, by omega, ?_, ?_⟩
    · intro room hr'
      rw [hr] at hr'
      cases hr'
    · intro hz ho hc
      have hslice := hslice ho hc
      omega

theorem flatten_visible_ne_nil (sink : ScriptedSink) (h : parts.flatten ≠ []) :
    (sink.visible parts).flatten ≠ [] := by
  unfold visible
  split
  · exact h
  · have hne := mt (Parts.dropEmpty_eq_nil_iff parts).mp h
    obtain ⟨part, rest, hd⟩ := List.exists_cons_of_ne_nil hne
    rw [hd]
    simpa using Parts.trimmed_dropEmpty parts part rest hd

namespace Steady

theorem append (hs : sink.Steady) (bytes : Bytes) : (sink.append bytes).Steady :=
  ⟨hs.unscripted, hs.chunk_ne_zero, hs.patient⟩

theorem flush (hs : sink.Steady) : sink.flush.2.Steady := by
  simp only [ScriptedSink.flush]
  split <;> exact ⟨hs.unscripted, hs.chunk_ne_zero, hs.patient⟩

theorem snd_write (hs : sink.Steady) (parts : Parts) :
    (sink.write parts).2 = sink.settle (sink.visible parts).flatten (sink.write parts).1 := by
  have hsame : { sink with writes := sink.writes.tail } = sink := by
    rw [hs.unscripted, List.tail_nil, ← hs.unscripted]
  rw [ScriptedSink.snd_write, hsame]

/-- A write takes a slice of its parts that fits. Only if there is no room it takes nothing. -/
theorem write_cases (hs : sink.Steady) (hne : parts.flatten ≠ []) :
    (sink.room? = some 0 ∧ (sink.write parts).2 = sink ∧
        ((sink.write parts).1 = .failed sink.fullError ∧ sink.fullError.kind ≠ .interrupted ∨
          (sink.write parts).1 = .accepted 0 ∧ sink.fullError = .plain .writeZero)) ∨
      ∃ count, 0 < count ∧ count ≤ parts.flatten.length ∧
        (∀ room, sink.room? = some room → count ≤ room) ∧
        sink.write parts = (.accepted count, sink.append (parts.flatten.take count)) := by
  have hanswer : (sink.write parts).1 = sink.usualAnswer (sink.visible parts).flatten := by
    rw [fst_write, hs.unscripted]
    rfl
  have hnext := hs.snd_write parts
  rcases sink.usualAnswer_cases (sink.visible parts).flatten with
    ⟨error, ha, hf, hr⟩ | ⟨count, ha, hle, hfits, hzero⟩
  · rw [hanswer, ha] at hnext
    have hfull : sink.fullError = error := by rw [fullError, hf, Option.getD_some]
    refine .inl ⟨hr, hnext, .inl ⟨?_, ?_⟩⟩
    · rw [hanswer, ha, hfull]
    · rw [hfull]
      exact hs.patient error hf
  · rw [hanswer, ha] at hnext
    rcases Nat.eq_zero_or_pos count with rfl | hpos
    · obtain ⟨hf, hr⟩ := hzero rfl (sink.flatten_visible_ne_nil hne) hs.chunk_ne_zero
      refine .inl ⟨hr, ?_, .inr ⟨hanswer.trans ha, ?_⟩⟩
      · rw [hnext, settle, List.take_zero, append_nil]
      · rw [fullError, hf, Option.getD_none]
    · obtain ⟨back, hback⟩ := sink.flatten_visible parts
      refine .inr ⟨count, hpos, ?_, hfits, Prod.ext (hanswer.trans ha) ?_⟩
      · rw [← hback, List.length_append]
        omega
      · rw [hnext, settle, ← hback, List.take_append_of_le_length hle]

/-- The loop takes what fits of its parts, slice by slice, and fails if that is not all. -/
theorem writeAll (hs : sink.Steady) (ht : parts.Trimmed) :
    (writeAll sink parts).sink = sink.append (sink.fitting parts.flatten) ∧
      (writeAll sink parts).ending =
        if sink.fitting parts.flatten = parts.flatten then .complete
        else .failed sink.fullError := by
  -- The bytes that are left decrease with every slice, however small; no script bounds the turns.
  induction hn : parts.size using Nat.strongRecOn generalizing sink parts with
  | ind n ih =>
    by_cases hp : parts = []
    · rw [hp, writeAll_nil, List.flatten_nil, fitting_nil, append_nil, if_pos rfl]
      exact ⟨rfl, rfl⟩
    have hne : parts.flatten ≠ [] := List.length_pos_iff.mp (ht.size_pos hp)
    rcases hs.write_cases hne with ⟨hr, hnext, hfull⟩ | ⟨count, hpos, hle, hfits, hw⟩
    · rw [fitting_of_full hr, append_nil, if_neg hne.symm]
      rcases hfull with ⟨ha, hk⟩ | ⟨ha, he⟩
      · rw [writeAll_of_failed hp (Prod.ext ha hnext) hk]
        exact ⟨rfl, rfl⟩
      · rw [writeAll_of_zero hp (Prod.ext ha hnext), he]
        exact ⟨rfl, rfl⟩
    · obtain ⟨rest, hrest⟩ := Parts.exists_advance? hle
      have hsize : rest.size < n := by
        rw [Parts.size_advance? hrest, ← hn]
        have := Parts.le_size_of_advance? hrest
        omega
      obtain ⟨hsink, hending⟩ :=
        ih _ hsize (hs.append (parts.flatten.take count)) (Parts.trimmed_advance? hrest) rfl
      rw [writeAll_of_accepted hp hw hpos hrest]
      rw [Parts.flatten_advance? hrest] at hsink hending
      refine ⟨?_, ?_⟩
      · rw [sink.fitting_split hle hfits, ← append_append]
        exact hsink
      · simp only [fitting_eq_iff_split hle hfits]
        exact hending

end Steady

/-! ## One call -/

/-- Why a call fails for want of room, if it does. -/
def refusal? (sink : ScriptedSink) (text : Bytes) : Option IoError :=
  if sink.fitting text = text then none else some sink.fullError

/-- The sink with what fits of a text. -/
def filled (sink : ScriptedSink) (text : Bytes) : ScriptedSink := sink.append (sink.fitting text)

/-- A call fills the sink and flushes it. Only its writes tell how the sink slices the bytes. -/
theorem Steady.deliver (hs : sink.Steady) (message : Message) :
    ∃ calls, deliver sink message =
      ⟨calls, some (sink.filled message.text).flush.1,
        .returned (.ofEnds message.text.length (sink.refusal? message.text)
          (sink.filled message.text).flush.1),
        (sink.filled message.text).flush.2⟩ := by
  obtain ⟨hsink, hending⟩ := hs.writeAll (Parts.trimmed_dropEmpty message.parts)
  rw [Parts.flatten_dropEmpty] at hsink hending
  refine ⟨(Outlet.writeAll sink message.parts.dropEmpty).calls, ?_⟩
  by_cases hfits : sink.fitting message.text = message.text
  · rw [refusal?, if_pos hfits, deliver_of_complete (hending.trans (if_pos hfits)), hsink]
    rfl
  · rw [refusal?, if_neg hfits, deliver_of_failed (hending.trans (if_neg hfits)), hsink]
    rfl

/-- A report without its writes. -/
def Report.withoutCalls (report : Report) : Report := { report with calls := [] }

/-- What a call reports besides its writes, and what it leaves. -/
theorem Steady.step_call (hs : sink.Steady) (config : Config) (form : Form) (message : Message) :
    let flush := (sink.filled message.text).flush
    let result := CallResult.ofEnds message.text.length (sink.refusal? message.text) flush.1
    (step config sink (.call form message)).1.withoutCalls =
        ⟨.reply (form.reply result), [], some flush.1, flush.2.out.drop sink.out.length,
          flush.2.pending, form.trace config message.callName result⟩ ∧
      (step config sink (.call form message)).2 = flush.2 := by
  obtain ⟨calls, hd⟩ := hs.deliver message
  rw [step, hd]
  exact ⟨rfl, rfl⟩

/-! ## Slicing in another way -/

/-- The sink as it is, but for how it slices the bytes. -/
def sliced (sink : ScriptedSink) (vectored : Bool) (chunk : Option Nat) : ScriptedSink :=
  { sink with vectored, chunk }

variable {vectored : Bool} {chunk : Option Nat}

theorem Steady.sliced (hs : sink.Steady) (hc : chunk ≠ some 0) :
    (sink.sliced vectored chunk).Steady :=
  ⟨hs.unscripted, hc, hs.patient⟩

theorem flush_sliced (sink : ScriptedSink) (vectored : Bool) (chunk : Option Nat) :
    (sink.sliced vectored chunk).flush = (sink.flush.1, sink.flush.2.sliced vectored chunk) := by
  simp only [flush, ScriptedSink.sliced]
  split <;> rfl

/-- How a sink slices the bytes shows in no report but in its writes. -/
theorem Steady.step_sliced (hs : sink.Steady) (hc : chunk ≠ some 0) (config : Config)
    (next : Step) :
    (step config (sink.sliced vectored chunk) next).1.withoutCalls =
        (step config sink next).1.withoutCalls ∧
      (step config (sink.sliced vectored chunk) next).2 =
        (step config sink next).2.sliced vectored chunk := by
  cases next with
  | poke bytes => exact ⟨rfl, rfl⟩
  | call form message =>
    obtain ⟨hreport, hnext⟩ := hs.step_call config form message
    obtain ⟨hreport', hnext'⟩ := (hs.sliced hc).step_call config form message
    rw [hreport, hnext, hreport', hnext']
    have hflush : ((sink.sliced vectored chunk).filled message.text).flush =
        ((sink.filled message.text).flush.1,
          (sink.filled message.text).flush.2.sliced vectored chunk) :=
      flush_sliced (sink.filled message.text) vectored chunk
    rw [hflush]
    exact ⟨rfl, rfl⟩

theorem Steady.step (hs : sink.Steady) (config : Config) (next : Step) :
    (step config sink next).2.Steady := by
  cases next with
  | poke bytes => exact hs.append bytes
  | call form message =>
    rw [(hs.step_call config form message).2]
    exact (hs.append _).flush

theorem Steady.run_sliced (hs : sink.Steady) (hc : chunk ≠ some 0) (config : Config)
    (steps : List Step) :
    (run config (sink.sliced vectored chunk) steps).1.map Report.withoutCalls =
      (run config sink steps).1.map Report.withoutCalls := by
  have hstep : ∀ (state other : ScriptedSink) (next : Step),
      state.Steady ∧ other = state.sliced vectored chunk →
        (ScriptedSink.step config state next).1.withoutCalls =
            (ScriptedSink.step config other next).1.withoutCalls ∧
          (ScriptedSink.step config state next).2.Steady ∧
            (ScriptedSink.step config other next).2 =
              (ScriptedSink.step config state next).2.sliced vectored chunk := by
    rintro state other next ⟨hs, rfl⟩
    obtain ⟨hreport, hnext⟩ := hs.step_sliced hc config next
    exact ⟨hreport.symm, hs.step config next, hnext⟩
  exact (Session.run_map_eq hstep ⟨hs, rfl⟩ steps).1.symm

/-! ## Filling up to the limit -/

/-- The front of a text, up to a limit if there is one. -/
def upTo : Option Nat → Bytes → Bytes
  | some limit, text => text.take limit
  | none, text => text

@[simp] theorem upTo_nil (limit : Option Nat) : upTo limit [] = [] := by
  cases limit with
  | none => rfl
  | some most => exact List.take_nil

/-- A text that does not fit under a limit behind others. -/
def Overflows (limit : Option Nat) (before text : Bytes) : Prop :=
  text ≠ [] ∧ ∃ most, limit = some most ∧ most < before.length + text.length

theorem overflows_some_iff {most : Nat} {before text : Bytes} :
    Overflows (some most) before text ↔
      0 < text.length ∧ most < before.length + text.length := by
  simp [Overflows, List.length_pos_iff]

/-- Behind the limit every text overflows that is not empty. -/
theorem overflows_of_full {limit : Option Nat} {most : Nat} {before text : Bytes}
    (hl : limit = some most) (hle : most ≤ before.length) (hne : text ≠ []) :
    Overflows limit before text := by
  have hpos := List.length_pos_iff.mpr hne
  rw [hl, overflows_some_iff]
  omega

/-- A call as a step. -/
def Step.ofCall (call : Form × Message) : Step := .call call.1 call.2

/-- The texts of some calls, one behind the other. -/
def textOf (calls : List (Form × Message)) : Bytes := calls.flatMap (·.2.text)

/-- A sink that was empty once and has been filled with the front of some texts. -/
structure Filled (start : ScriptedSink) (texts : Bytes) (sink : ScriptedSink) : Prop where
  steady : sink.Steady
  limit : sink.limit = start.limit
  onFull : sink.onFull = start.onFull
  taken : sink.taken = upTo start.limit texts

theorem fitting_of_limit {limit : Nat} (hl : sink.limit = some limit) (text : Bytes) :
    sink.fitting text = text.take (limit - sink.taken.length) := by
  rw [fitting, room?, hl, taken, List.length_append]
  rfl

theorem fitting_of_unlimited (hl : sink.limit = none) (text : Bytes) :
    sink.fitting text = text := by
  rw [fitting, room?, hl]
  rfl

namespace Filled

variable {start : ScriptedSink} {texts : Bytes}

theorem nil (hs : start.Steady) (ht : start.taken = []) : Filled start [] start := by
  refine ⟨hs, rfl, rfl, ?_⟩
  rw [ht, upTo_nil]

theorem taken_filled (h : Filled start texts sink) (text : Bytes) :
    (sink.filled text).taken = upTo start.limit (texts ++ text) := by
  rw [filled, taken_append, h.taken]
  cases hl : start.limit with
  | none => rw [fitting_of_unlimited (h.limit.trans hl), upTo, upTo]
  | some limit =>
    rw [fitting_of_limit (h.limit.trans hl), h.taken, hl]
    exact Bytes.take_append_take limit texts text

/-- A text fits whole unless it overflows. -/
theorem fitting_eq_iff (h : Filled start texts sink) (text : Bytes) :
    sink.fitting text = text ↔ ¬ Overflows start.limit texts text := by
  cases hl : start.limit with
  | none => simp [fitting_of_unlimited (h.limit.trans hl), Overflows]
  | some limit =>
    rw [fitting_of_limit (h.limit.trans hl), List.take_eq_self_iff, h.taken, hl, upTo,
      List.length_take, overflows_some_iff]
    omega

theorem refusal?_eq (h : Filled start texts sink) (text : Bytes) :
    (Overflows start.limit texts text → sink.refusal? text = some start.fullError) ∧
      (¬ Overflows start.limit texts text → sink.refusal? text = none) := by
  have hfull : sink.fullError = start.fullError := by rw [fullError, h.onFull, fullError]
  rw [refusal?, hfull]
  refine ⟨fun ho => if_neg fun hfits => ?_, fun ho => if_pos ((h.fitting_eq_iff text).mpr ho)⟩
  exact (h.fitting_eq_iff text).mp hfits ho

theorem step (h : Filled start texts sink) (config : Config) (form : Form) (message : Message) :
    Filled start (texts ++ message.text) (step config sink (.call form message)).2 := by
  have hnext := (h.steady.step_call config form message).2
  refine ⟨h.steady.step config _, ?_, ?_, ?_⟩
  · rw [hnext]
    exact (flush_keeps fun _ _ _ => rfl).trans h.limit
  · rw [hnext]
    exact (flush_keeps fun _ _ _ => rfl).trans h.onFull
  · rw [hnext, taken_flush]
    exact h.taken_filled message.text

theorem run (h : Filled start texts sink) (config : Config) (calls : List (Form × Message)) :
    Filled start (texts ++ textOf calls) (run config sink (calls.map Step.ofCall)).2 := by
  induction calls generalizing texts sink with
  | nil =>
    rw [textOf, List.flatMap_nil, List.append_nil]
    exact h
  | cons call rest ih =>
    rw [textOf, List.flatMap_cons, ← List.append_assoc]
    exact ih (h.step config call.1 call.2)

end Filled

/-! ## Whole sessions of calls -/

/-- Over a session of calls an empty sink takes the front of their texts, up to its limit. A call
fails if the limit cuts its text, and otherwise as its flush does; behind the limit a text adds
nothing. How the sink slices the bytes makes no difference to any of this. -/
theorem run_fills_limit (hs : sink.Steady) (hout : sink.out = []) (hpending : sink.pending = [])
    (config : Config) (calls : List (Form × Message)) :
    (∀ before form message after, calls = before ++ (form, message) :: after →
        let state := (run config sink (before.map Step.ofCall)).2
        let report := (step config state (.call form message)).1
        let next := (step config state (.call form message)).2
        (run config sink (calls.map Step.ofCall)).1[before.length]? = some report ∧
          next.out ++ next.pending = upTo sink.limit (textOf before ++ message.text) ∧
          ∃ result flush, report.answer = .reply (form.reply result) ∧
            report.flush = some flush ∧
            (Overflows sink.limit (textOf before) message.text →
              result = .failed (.ofWrite sink.fullError)) ∧
            (¬ Overflows sink.limit (textOf before) message.text →
              result = match flush with
                | .failed error => .failed (.ofFlush error)
                | .done => .wrote message.text.length) ∧
            ∀ most, sink.limit = some most → most ≤ (textOf before).length → message.text ≠ [] →
              result = .failed (.ofWrite sink.fullError) ∧
                next.out ++ next.pending = state.out ++ state.pending) ∧
      ∀ vectored chunk, chunk ≠ some 0 →
        (run config { sink with vectored, chunk } (calls.map Step.ofCall)).1.map
            Report.withoutCalls =
          (run config sink (calls.map Step.ofCall)).1.map Report.withoutCalls := by
  refine ⟨?_, fun vectored chunk hc => hs.run_sliced hc config _⟩
  rintro before form message after rfl state report next
  have hempty : sink.taken = [] := by rw [taken, hout, hpending, List.append_nil]
  have hstate : Filled sink (textOf before) state := (Filled.nil hs hempty).run config before
  have hnext : next.taken = upTo sink.limit (textOf before ++ message.text) :=
    (hstate.step config form message).taken
  have hreport := (hstate.steady.step_call config form message).1
  obtain ⟨hover, hfits⟩ := hstate.refusal?_eq message.text
  refine ⟨?_, hnext, _, _, congrArg Report.answer hreport, congrArg Report.flush hreport,
    ?_, ?_, ?_⟩
  · have hrun := Session.run_getElem? (ScriptedSink.step config) sink (before.map Step.ofCall)
      (.call form message) (after.map Step.ofCall)
    rw [List.length_map] at hrun
    rw [List.map_append, List.map_cons]
    exact hrun
  · intro ho
    rw [hover ho]
    rfl
  · intro ho
    rw [hfits ho]
    cases (state.filled message.text).flush.1 <;> rfl
  · intro most hl hle hne
    have ho := overflows_of_full hl hle hne
    refine ⟨?_, ?_⟩
    · rw [hover ho]
      rfl
    · show next.taken = state.taken
      rw [hnext, hstate.taken, hl]
      exact List.take_append_of_le_length hle

/-- A line of which only the newline does not fit, behind a call whose flush fails. -/
theorem run_fills_limit_before_newline :
    let sink : ScriptedSink :=
      ⟨false, [], [.fail (.plain .timedOut)], some 2, some 3, some (.plain .brokenPipe), [], []⟩
    let before : List (Form × Message) := [(.coded, .bytes .string [])]
    let line : Form × Message := (.typed, .bytes .line [97, 98, 99])
    let last := run ⟨true⟩ sink ((before ++ [line]).map Step.ofCall)
    sink.Steady ∧
      last.1[1]?.map Report.answer =
        some (.reply (.result (.failed (.write .brokenPipe "broken pipe")))) ∧
      (run ⟨true⟩ { sink with vectored := true, chunk := none }
          ((before ++ [line]).map Step.ofCall)).1.map Report.withoutCalls =
        last.1.map Report.withoutCalls := by
  intro sink before line last
  have hs : sink.Steady := by
    refine ⟨rfl, by decide, ?_⟩
    intro error he
    cases he
    decide
  obtain ⟨hcalls, hsliced⟩ := run_fills_limit hs rfl rfl ⟨true⟩ (before ++ [line])
  obtain ⟨hreport, -, result, flush, hanswer, -, hover, -⟩ := hcalls before line.1 line.2 [] rfl
  have ho : Overflows sink.limit (textOf before) line.2.text :=
    ⟨by decide, 3, rfl, by decide⟩
  refine ⟨hs, ?_, hsliced true none (by decide)⟩
  rw [hover ho] at hanswer
  exact (congrArg (Option.map Report.answer) hreport).trans (congrArg some hanswer)

end ScriptedSink

end Outlet
