import Outlet.Delivery

/-!
# What the write loop leaves

The writes of a delivery are compared with its text: by the numbers that the sink reported, and by
the bytes that it took. The comparison of numbers holds on every sink. That the bytes taken are the
first ones of the text needs writes that report what they take, and a sink that is shown nothing
but the front of an offer.
-/

namespace Outlet

/-- Parts of which the first is not empty. The loop is given such parts, and keeps them so. -/
def Parts.Trimmed (parts : Parts) : Prop := ∀ part rest, parts = part :: rest → part ≠ []

namespace Parts

theorem trimmed_advance? {n : Nat} {parts rest : Parts} (h : parts.advance? n = some rest) :
    rest.Trimmed := by
  intro part tail hr
  subst hr
  exact ne_nil_of_advance? h

theorem trimmed_dropEmpty (parts : Parts) : parts.dropEmpty.Trimmed :=
  trimmed_advance? (advance?_zero parts)

theorem Trimmed.size_pos {parts : Parts} (ht : parts.Trimmed) (hp : parts ≠ []) :
    0 < parts.size := by
  cases parts with
  | nil => exact absurd rfl hp
  | cons part rest =>
    have hl := List.length_pos_iff.mpr (ht part rest rfl)
    rw [size_cons]
    omega

theorem dropEmpty_eq_nil_iff (parts : Parts) : parts.dropEmpty = [] ↔ parts.flatten = [] := by
  constructor
  · intro h
    rw [← flatten_dropEmpty, h, List.flatten_nil]
  · intro h
    by_cases hne : parts.dropEmpty = []
    · exact hne
    · have hpos := (trimmed_dropEmpty parts).size_pos hne
      rw [size_dropEmpty, size, h] at hpos
      exact absurd hpos (by decide)

theorem le_size_of_advance? {n : Nat} {parts rest : Parts} (h : parts.advance? n = some rest) :
    n ≤ parts.size := by
  by_cases hlt : parts.size < n
  · rw [(advance?_eq_none_iff n parts).mpr hlt] at h
    cases h
  · omega

theorem length_advance?_le {n : Nat} {parts rest : Parts} (h : parts.advance? n = some rest) :
    rest.length ≤ parts.length := by
  induction parts generalizing n with
  | nil =>
    cases n with
    | zero => simp_all [advance?]
    | succ n => simp [advance?] at h
  | cons part tail ih =>
    rw [advance?] at h
    split at h
    next =>
      have hle := ih h
      rw [List.length_cons]
      omega
    next =>
      obtain rfl := Option.some.inj h
      simp

theorem exists_advance? {n : Nat} {parts : Parts} (h : n ≤ parts.size) :
    ∃ rest, parts.advance? n = some rest := by
  cases hr : parts.advance? n with
  | none =>
    have := (advance?_eq_none_iff n parts).mp hr
    omega
  | some rest => exact ⟨rest, rfl⟩

theorem Trimmed.dropEmpty {parts : Parts} (ht : parts.Trimmed) : parts.dropEmpty = parts := by
  cases parts with
  | nil => rfl
  | cons part rest =>
    have hne := ht part rest rfl
    exact List.dropWhile_cons_of_neg (by simpa using hne)

/-- Two advances are one by both numbers together. -/
theorem advance?_advance? {n : Nat} {parts rest : Parts} (h : parts.advance? n = some rest)
    (m : Nat) : rest.advance? m = parts.advance? (n + m) := by
  induction parts generalizing n with
  | nil =>
    cases n with
    | zero =>
      obtain rfl := Option.some.inj h
      rw [Nat.zero_add]
    | succ n => simp [advance?] at h
  | cons part tail ih =>
    rw [advance?] at h ⊢
    split at h
    next hle =>
      rw [ih h, if_pos (by omega)]
      congr 1
      omega
    next hlt =>
      obtain rfl := Option.some.inj h
      rw [advance?, List.length_drop, List.drop_drop]
      by_cases hall : part.length ≤ n + m
      · rw [if_pos hall, if_pos (by omega)]
        congr 1
        omega
      · rw [if_neg hall, if_neg (by omega)]

/-- Bytes up to an advance, and then bytes of what is left. -/
theorem take_of_advance? {n : Nat} {parts rest : Parts} (h : parts.advance? n = some rest)
    (m : Nat) : parts.flatten.take (n + m) = parts.flatten.take n ++ rest.flatten.take m := by
  rw [flatten_advance? h, List.take_add]

end Parts

namespace WriteCall

/-- How many bytes a write reported. -/
def reported (call : WriteCall) : Nat :=
  match call.answer with
  | .accepted count => count
  | .failed _ => 0

/-- The bytes of its offer that a write reported. -/
def taken (call : WriteCall) : Bytes := call.offer.flatten.take call.reported

/-- The write reported as many bytes as there were for it to take. -/
def Honest (call : WriteCall) : Prop := call.taken.length = call.reported

theorem honest_iff (call : WriteCall) : call.Honest ↔ call.reported ≤ call.offer.size := by
  rw [Honest, taken, List.length_take, Parts.size]
  omega

/-- The numbers that some writes reported, together. -/
def reportedBy : List WriteCall → Nat
  | [] => 0
  | call :: rest => call.reported + reportedBy rest

/-- The bytes that some writes took, in order. -/
def takenBy (calls : List WriteCall) : Bytes := calls.flatMap taken

@[simp] theorem reportedBy_nil : reportedBy [] = 0 := rfl

@[simp] theorem reportedBy_cons (call : WriteCall) (rest : List WriteCall) :
    reportedBy (call :: rest) = call.reported + reportedBy rest := rfl

@[simp] theorem reportedBy_append (first second : List WriteCall) :
    reportedBy (first ++ second) = reportedBy first + reportedBy second := by
  induction first with
  | nil => simp
  | cons call rest ih => simp [ih, Nat.add_assoc]

@[simp] theorem takenBy_nil : takenBy [] = [] := rfl

@[simp] theorem takenBy_cons (call : WriteCall) (rest : List WriteCall) :
    takenBy (call :: rest) = call.taken ++ takenBy rest := rfl

@[simp] theorem takenBy_append (first second : List WriteCall) :
    takenBy (first ++ second) = takenBy first ++ takenBy second := by
  simp [takenBy]

@[simp] theorem reported_accepted (offer : Parts) (count : Nat) :
    reported ⟨offer, .accepted count⟩ = count := rfl

@[simp] theorem reported_failed (offer : Parts) (error : IoError) :
    reported ⟨offer, .failed error⟩ = 0 := rfl

@[simp] theorem taken_accepted (offer : Parts) (count : Nat) :
    taken ⟨offer, .accepted count⟩ = offer.flatten.take count := rfl

@[simp] theorem taken_failed (offer : Parts) (error : IoError) :
    taken ⟨offer, .failed error⟩ = [] := rfl

end WriteCall

open WriteCall

/-- What an ending says about the bytes reported, out of those there were. -/
def WriteEnd.Agrees (reported size : Nat) : WriteEnd → Prop
  | .complete => reported = size
  | .failed _ | .stalled => reported < size
  | .overrun => size < reported

theorem WriteEnd.Agrees.advance {ending : WriteEnd} {n reported size : Nat} (hn : n ≤ size)
    (h : ending.Agrees reported (size - n)) : ending.Agrees (n + reported) size := by
  cases ending <;> simp only [Agrees] at h ⊢ <;> omega

variable {σ : Type} [Sink σ]

/-! ## One turn -/

section
variable {sink next : σ} {parts rest : Parts} {error : IoError} {count : Nat}

theorem writeAll_nil (sink : σ) : writeAll sink [] = ⟨[], .complete, sink⟩ := by
  rw [writeAll, if_pos rfl]

theorem writeAll_of_zero (hp : parts ≠ []) (hw : Sink.write sink parts = (.accepted 0, next)) :
    writeAll sink parts =
      ⟨[⟨Sink.visible sink parts, .accepted 0⟩], .failed (.plain .writeZero), next⟩ := by
  rw [writeAll, if_neg hp]
  simp only [hw]

theorem writeAll_of_overrun (hp : parts ≠ []) (hw : Sink.write sink parts = (.accepted count, next))
    (hc : 0 < count) (hr : parts.advance? count = none) :
    writeAll sink parts =
      ⟨[⟨Sink.visible sink parts, .accepted count⟩], .overrun, next⟩ := by
  cases count with
  | zero => exact absurd hc (Nat.lt_irrefl 0)
  | succ count =>
    rw [writeAll, if_neg hp]
    simp only [hw]
    split
    next => rfl
    next rest h =>
      rw [hr] at h
      cases h

theorem writeAll_of_accepted (hp : parts ≠ [])
    (hw : Sink.write sink parts = (.accepted count, next)) (hc : 0 < count)
    (hr : parts.advance? count = some rest) :
    writeAll sink parts =
      (writeAll next rest).after ⟨Sink.visible sink parts, .accepted count⟩ := by
  cases count with
  | zero => exact absurd hc (Nat.lt_irrefl 0)
  | succ count =>
    rw [writeAll, if_neg hp]
    simp only [hw]
    split
    next h =>
      rw [hr] at h
      cases h
    next rest' h =>
      rw [hr] at h
      obtain rfl := Option.some.inj h
      rfl

theorem writeAll_of_interrupted (hp : parts ≠ [])
    (hw : Sink.write sink parts = (.failed error, next)) (hk : error.kind = .interrupted)
    (hpat : Sink.patience next < Sink.patience sink) :
    writeAll sink parts =
      (writeAll next parts).after ⟨Sink.visible sink parts, .failed error⟩ := by
  rw [writeAll, if_neg hp]
  simp only [hw, if_pos hk, dif_pos hpat]

theorem writeAll_of_stalled (hp : parts ≠ [])
    (hw : Sink.write sink parts = (.failed error, next)) (hk : error.kind = .interrupted)
    (hpat : ¬ Sink.patience next < Sink.patience sink) :
    writeAll sink parts =
      ⟨[⟨Sink.visible sink parts, .failed error⟩], .stalled, next⟩ := by
  rw [writeAll, if_neg hp]
  simp only [hw, if_pos hk, dif_neg hpat]

theorem writeAll_of_failed (hp : parts ≠ []) (hw : Sink.write sink parts = (.failed error, next))
    (hk : error.kind ≠ .interrupted) :
    writeAll sink parts =
      ⟨[⟨Sink.visible sink parts, .failed error⟩], .failed error, next⟩ := by
  rw [writeAll, if_neg hp]
  simp only [hw, if_neg hk]

end

/-! ## All turns -/

/-- The reports add up to the whole text, to less or to more of it, as the loop ended. -/
theorem writeAll_agrees (sink : σ) {parts : Parts} (ht : parts.Trimmed) :
    (writeAll sink parts).ending.Agrees (reportedBy (writeAll sink parts).calls) parts.size := by
  fun_induction writeAll sink parts with
  | case1 => rfl
  | case2 sink parts hp call next ha =>
    simpa [WriteEnd.Agrees, call, ha] using ht.size_pos hp
  | case3 sink parts hp call next count ha hr =>
    simpa [WriteEnd.Agrees, call, ha] using (Parts.advance?_eq_none_iff _ _).mp hr
  | case4 sink parts hp call next count ha rest hr ih =>
    have hrest := ih (Parts.trimmed_advance? hr)
    rw [Parts.size_advance? hr] at hrest
    simpa [Written.after, call, ha] using hrest.advance (Parts.le_size_of_advance? hr)
  | case5 sink parts hp call next error ha hi hpat ih =>
    simpa [Written.after, call, ha] using ih ht
  | case6 sink parts hp call next error ha hi hpat =>
    simpa [WriteEnd.Agrees, call, ha] using ht.size_pos hp
  | case7 sink parts hp call next error ha hi =>
    simpa [WriteEnd.Agrees, call, ha] using ht.size_pos hp

/-- Bytes within an offer that shows the front of a text are the front of the text. -/
theorem WriteCall.Honest.taken_eq {call : WriteCall} {text : Bytes} (hh : call.Honest)
    (hv : call.offer.flatten <+: text) : call.taken = text.take call.reported := by
  obtain ⟨rest, rfl⟩ := hv
  rw [taken, List.take_append_of_le_length ((honest_iff call).mp hh)]

/-- Writes that report what they take, take the text from its front. -/
theorem takenBy_writeAll
    (hv : ∀ (sink : σ) parts, (Sink.visible sink parts).flatten <+: parts.flatten)
    (sink : σ) (parts : Parts) (hh : ∀ call ∈ (writeAll sink parts).calls, call.Honest) :
    takenBy (writeAll sink parts).calls =
      parts.flatten.take (reportedBy (writeAll sink parts).calls) := by
  fun_induction writeAll sink parts with
  | case1 => rfl
  | case2 sink parts hp call next ha => simp [call, ha]
  | case3 sink parts hp call next count ha hr =>
    have hcall := (hh call (by simp)).taken_eq (hv sink parts)
    simpa using hcall
  | case4 sink parts hp call next count ha rest hr ih =>
    have hcall := (hh call (by simp [Written.after])).taken_eq (hv sink parts)
    have hrest := ih fun c hc => hh c (by simp [Written.after, hc])
    have hn : call.reported = count + 1 := by simp [call, ha]
    rw [Written.after, takenBy_cons, reportedBy_cons, hcall, hrest, hn,
      Parts.take_of_advance? hr]
  | case5 sink parts hp call next error ha hi hpat ih =>
    have hrest := ih fun c hc => hh c (by simp [Written.after, hc])
    simpa [Written.after, call, ha] using hrest
  | case6 sink parts hp call next error ha hi hpat => simp [call, ha]
  | case7 sink parts hp call next error ha hi => simp [call, ha]

theorem length_takenBy {calls : List WriteCall} (hh : ∀ call ∈ calls, call.Honest) :
    (takenBy calls).length = reportedBy calls := by
  induction calls with
  | nil => rfl
  | cons call rest ih =>
    have hrest := ih fun c hc => hh c (List.mem_cons_of_mem call hc)
    have hcall : call.taken.length = call.reported := hh call List.mem_cons_self
    rw [takenBy_cons, reportedBy_cons, List.length_append, hcall, hrest]

theorem writeAll_ending_ne_overrun
    (hv : ∀ (sink : σ) parts, (Sink.visible sink parts).flatten <+: parts.flatten)
    (sink : σ) {parts : Parts} (ht : parts.Trimmed)
    (hh : ∀ call ∈ (writeAll sink parts).calls, call.Honest) :
    (writeAll sink parts).ending ≠ .overrun := by
  intro he
  have hmore : parts.size < reportedBy (writeAll sink parts).calls := by
    have h := writeAll_agrees sink ht
    rwa [he] at h
  have hlen := length_takenBy hh
  rw [takenBy_writeAll hv sink parts hh, List.length_take] at hlen
  rw [Parts.size] at hmore
  omega

/-! ## What the sink keeps -/

/-- What every write keeps of a sink, the loop keeps. -/
theorem writeAll_keeps (kept : σ → Prop)
    (hk : ∀ sink parts, kept sink → kept (Sink.write sink parts).2) {sink : σ} (hs : kept sink)
    (parts : Parts) : kept (writeAll sink parts).sink := by
  fun_induction writeAll sink parts with
  | case1 => exact hs
  | case4 sink parts _ call next _ _ _ _ ih | case5 sink parts _ call next _ _ _ _ ih =>
    exact ih (hk sink parts hs)
  | case2 sink parts | case3 sink parts | case6 sink parts | case7 sink parts =>
    exact hk sink parts hs

/-- A record that every write adds to, by what is seen of it, has in the end what is seen of all. -/
theorem writeAll_records {α : Type} (kept : σ → Prop) (record : σ → List α)
    (seen : WriteCall → List α)
    (hk : ∀ sink parts, kept sink → kept (Sink.write sink parts).2)
    (hr : ∀ sink parts, kept sink → record (Sink.write sink parts).2 =
      record sink ++ seen ⟨Sink.visible sink parts, (Sink.write sink parts).1⟩)
    {sink : σ} (hs : kept sink) (parts : Parts) :
    record (writeAll sink parts).sink =
      record sink ++ (writeAll sink parts).calls.flatMap seen := by
  fun_induction writeAll sink parts with
  | case1 sink => simp
  | case4 sink parts hp call next _ _ _ _ ih | case5 sink parts hp call next _ _ _ _ ih =>
    have hcall : record next = record sink ++ seen call := hr sink parts hs
    have hrest := ih (hk sink parts hs)
    rw [hcall, List.append_assoc] at hrest
    exact hrest
  | case2 sink parts hp call next | case3 sink parts hp call next | case6 sink parts hp call next
  | case7 sink parts hp call next =>
    have hcall : record next = record sink ++ seen call := hr sink parts hs
    rw [hcall, List.flatMap_singleton]

/-- A record of the bytes that writes took, if every write adds to it what it took. -/
theorem writeAll_collects (kept : σ → Prop) (record : σ → Bytes)
    (hk : ∀ sink parts, kept sink → kept (Sink.write sink parts).2)
    (hr : ∀ sink parts, kept sink → record (Sink.write sink parts).2 =
      record sink ++ WriteCall.taken ⟨Sink.visible sink parts, (Sink.write sink parts).1⟩)
    {sink : σ} (hs : kept sink) (parts : Parts) :
    record (writeAll sink parts).sink =
      record sink ++ takenBy (writeAll sink parts).calls :=
  writeAll_records kept record taken hk hr hs parts

/-- What holds of every write to a sink of some sort, holds of the writes of the loop. -/
theorem writeAll_calls (kept : σ → Prop) {good : WriteCall → Prop}
    (hk : ∀ sink parts, kept sink → kept (Sink.write sink parts).2)
    (hg : ∀ sink parts, kept sink → good ⟨Sink.visible sink parts, (Sink.write sink parts).1⟩)
    {sink : σ} (hs : kept sink) (parts : Parts) :
    ∀ call ∈ (writeAll sink parts).calls, good call := by
  fun_induction writeAll sink parts with
  | case1 => simp
  | case4 sink parts hp call next _ _ _ _ ih | case5 sink parts hp call next _ _ _ _ ih =>
    simpa [Written.after] using ⟨hg sink parts hs, ih (hk sink parts hs)⟩
  | case2 sink parts | case3 sink parts | case6 sink parts | case7 sink parts =>
    simpa using hg sink parts hs

/-- The loop is not given up on sinks whose patience every interruption uses up. -/
theorem writeAll_ending_ne_stalled (kept : σ → Prop)
    (hk : ∀ sink parts, kept sink → kept (Sink.write sink parts).2)
    (hp : ∀ sink parts error, kept sink → (Sink.write sink parts).1 = .failed error →
      error.kind = .interrupted → Sink.patience (Sink.write sink parts).2 < Sink.patience sink)
    {sink : σ} (hs : kept sink) (parts : Parts) : (writeAll sink parts).ending ≠ .stalled := by
  fun_induction writeAll sink parts with
  | case4 sink parts _ call next _ _ _ _ ih | case5 sink parts _ call next _ _ _ _ ih =>
    exact ih (hk sink parts hs)
  | case6 sink parts _ call next error ha hi hpat =>
    exact absurd (hp sink parts error hs ha hi) hpat
  | case1 | case2 | case3 | case7 => simp

/-! ## From the loop to a delivery -/

theorem calls_deliver (sink : σ) (message : Message) :
    (deliver sink message).calls = (writeAll sink message.parts.dropEmpty).calls := by
  rw [deliver, deliverParts]
  split <;> rfl

/-- What every write and every flush keeps of a sink, a delivery keeps. -/
theorem deliver_keeps (kept : σ → Prop)
    (hw : ∀ sink parts, kept sink → kept (Sink.write sink parts).2)
    (hf : ∀ sink, kept sink → kept (Sink.flush sink).2) {sink : σ} (hs : kept sink)
    (message : Message) : kept (deliver sink message).sink := by
  have hwritten := writeAll_keeps kept hw hs message.parts.dropEmpty
  rw [deliver, deliverParts]
  split
  · exact hwritten
  · exact hwritten
  · exact hf _ hwritten
  · exact hf _ hwritten

theorem deliver_collects (kept : σ → Prop) (record : σ → Bytes)
    (hk : ∀ sink parts, kept sink → kept (Sink.write sink parts).2)
    (hr : ∀ sink parts, kept sink → record (Sink.write sink parts).2 =
      record sink ++ WriteCall.taken ⟨Sink.visible sink parts, (Sink.write sink parts).1⟩)
    (hf : ∀ sink, kept sink → record (Sink.flush sink).2 = record sink)
    {sink : σ} (hs : kept sink) (message : Message) :
    record (deliver sink message).sink = record sink ++ takenBy (deliver sink message).calls := by
  have hwritten := writeAll_keeps kept hk hs message.parts.dropEmpty
  have hall := writeAll_collects kept record hk hr hs message.parts.dropEmpty
  rw [deliver, deliverParts]
  split
  · exact hall
  · exact hall
  · exact (hf _ hwritten).trans hall
  · exact (hf _ hwritten).trans hall

theorem deliver_of_complete {sink : σ} {message : Message}
    (h : (writeAll sink message.parts.dropEmpty).ending = .complete) :
    deliver sink message =
      ⟨(writeAll sink message.parts.dropEmpty).calls,
        some (Sink.flush (writeAll sink message.parts.dropEmpty).sink).1,
        .returned (.ofEnds message.text.length none
          (Sink.flush (writeAll sink message.parts.dropEmpty).sink).1),
        (Sink.flush (writeAll sink message.parts.dropEmpty).sink).2⟩ := by
  rw [deliver, deliverParts, h]
  rfl

theorem deliver_of_failed {sink : σ} {message : Message} {error : IoError}
    (h : (writeAll sink message.parts.dropEmpty).ending = .failed error) :
    deliver sink message =
      ⟨(writeAll sink message.parts.dropEmpty).calls,
        some (Sink.flush (writeAll sink message.parts.dropEmpty).sink).1,
        .returned (.failed (.ofWrite error)),
        (Sink.flush (writeAll sink message.parts.dropEmpty).sink).2⟩ := by
  rw [deliver, deliverParts, h]
  rfl

/-! ## Views of a sink -/

/-- A sink seen without a part of its state that no answer depends on. -/
structure SinkView {τ : Type} [Sink τ] (view : σ → τ) : Prop where
  visible : ∀ sink parts, Sink.visible (view sink) parts = Sink.visible sink parts
  write : ∀ sink parts,
    Sink.write (view sink) parts = ((Sink.write sink parts).1, view (Sink.write sink parts).2)
  flush : ∀ sink, Sink.flush (view sink) = ((Sink.flush sink).1, view (Sink.flush sink).2)
  patience : ∀ sink, Sink.patience (view sink) = Sink.patience sink

section
variable {τ : Type} [Sink τ] {view : σ → τ}

theorem SinkView.write_eq (hv : SinkView view) {sink : σ} {parts : Parts} {answer : WriteAnswer}
    (ha : (Sink.write sink parts).1 = answer) :
    Sink.write (view sink) parts = (answer, view (Sink.write sink parts).2) := by
  rw [hv.write, ha]

theorem SinkView.writeAll (hv : SinkView view) (sink : σ) (parts : Parts) :
    writeAll (view sink) parts =
      ⟨(writeAll sink parts).calls, (writeAll sink parts).ending,
        view (writeAll sink parts).sink⟩ := by
  fun_induction Outlet.writeAll sink parts with
  | case1 sink => exact writeAll_nil _
  | case2 sink parts hp call next ha =>
    rw [writeAll_of_zero hp (hv.write_eq ha), hv.visible, ← ha]
  | case3 sink parts hp call next count ha hr =>
    rw [writeAll_of_overrun hp (hv.write_eq ha) (Nat.succ_pos count) hr, hv.visible, ← ha]
  | case4 sink parts hp call next count ha rest hr ih =>
    rw [writeAll_of_accepted hp (hv.write_eq ha) (Nat.succ_pos count) hr, hv.visible, ← ha, ih]
    rfl
  | case5 sink parts hp call next error ha hi hpat ih =>
    have hless : Sink.patience (view next) < Sink.patience (view sink) := by
      rwa [hv.patience, hv.patience]
    rw [writeAll_of_interrupted hp (hv.write_eq ha) hi hless, hv.visible, ← ha, ih]
    rfl
  | case6 sink parts hp call next error ha hi hpat =>
    have hless : ¬ Sink.patience (view next) < Sink.patience (view sink) := by
      rwa [hv.patience, hv.patience]
    rw [writeAll_of_stalled hp (hv.write_eq ha) hi hless, hv.visible, ← ha]
  | case7 sink parts hp call next error ha hi =>
    rw [writeAll_of_failed hp (hv.write_eq ha) hi, hv.visible, ← ha]

/-- A delivery to a sink is one to what is seen of it. -/
theorem SinkView.deliver (hv : SinkView view) (sink : σ) (message : Message) :
    deliver (view sink) message =
      ⟨(deliver sink message).calls, (deliver sink message).flush, (deliver sink message).outcome,
        view (deliver sink message).sink⟩ := by
  rw [Outlet.deliver, Outlet.deliver, deliverParts, deliverParts, hv.writeAll, hv.flush]
  split <;> simp_all

end

/-! ## Calls on reliable sinks -/

section
variable [ReliableSink σ]

theorem send_of_returned {sink : σ} {message : Message} {result : CallResult}
    (h : (deliver sink message).outcome = .returned result) :
    send sink message = (result, (deliver sink message).sink) := by
  simp only [send, h, Outcome.result?, Option.get_some]

theorem send_of_complete {sink : σ} {message : Message}
    (h : (writeAll sink message.parts.dropEmpty).ending = .complete) :
    send sink message =
      (.ofEnds message.text.length none (Sink.flush (writeAll sink message.parts.dropEmpty).sink).1,
        (Sink.flush (writeAll sink message.parts.dropEmpty).sink).2) := by
  have hd := deliver_of_complete h
  rw [send_of_returned (congrArg Delivery.outcome hd), hd]

theorem send_of_failed {sink : σ} {message : Message} {error : IoError}
    (h : (writeAll sink message.parts.dropEmpty).ending = .failed error) :
    send sink message =
      (.failed (.ofWrite error), (Sink.flush (writeAll sink message.parts.dropEmpty).sink).2) := by
  have hd := deliver_of_failed h
  rw [send_of_returned (congrArg Delivery.outcome hd), hd]

end

end Outlet
