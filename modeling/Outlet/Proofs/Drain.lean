import Outlet.Proofs.RawWrite
import Outlet.Stdout.Session

/-!
# Calls on standard output, in closed form

What a drain, a write and a whole call do to standard output, by where the descriptor leads. While
the descriptor takes bytes, a call sends as much as fits of what is held and its text behind it. A
bad descriptor makes every text fail and drops what is held, and any other fault leaves everything
as it was.
-/

namespace Outlet.Stdout

open Descriptor

variable {stdout : Stdout}

/-! ## Drains -/

theorem drained_of_held_nil (hh : stdout.held = []) : stdout.drained = ⟨[], .done, stdout⟩ := by
  rw [drained, dif_pos hh]

theorem drained_of_accepted {count : Nat} {next : Descriptor} (hh : stdout.held ≠ [])
    (hw : stdout.descriptor.write [stdout.held] = (.accepted count, next)) :
    stdout.drained =
      (drained ⟨next, stdout.held.drop count⟩).after ⟨[stdout.held], .accepted count⟩ := by
  rw [drained, dif_neg hh]
  split
  next count' ha =>
    rw [hw] at ha
    obtain rfl := WriteAnswer.accepted.inj ha
    rw [hw]
  next error ha =>
    rw [hw] at ha
    cases ha

theorem drained_of_failed {error : IoError} {next : Descriptor} (hh : stdout.held ≠ [])
    (hw : stdout.descriptor.write [stdout.held] = (.failed error, next)) :
    stdout.drained =
      if error = .badDescriptor then ⟨[⟨[stdout.held], .failed error⟩], .done, ⟨next, []⟩⟩
      else ⟨[⟨[stdout.held], .failed error⟩], .failed error, ⟨next, stdout.held⟩⟩ := by
  rw [drained, dif_neg hh]
  split
  next count ha =>
    rw [hw] at ha
    cases ha
  next error' ha =>
    rw [hw] at ha
    obtain rfl := WriteAnswer.failed.inj ha
    rw [hw]

theorem drain_of_held_nil (hh : stdout.held = []) : stdout.drain = (.done, stdout) := by
  rw [drain, drained_of_held_nil hh]

theorem drain_of_accepted {count : Nat} {next : Descriptor} (hh : stdout.held ≠ [])
    (hw : stdout.descriptor.write [stdout.held] = (.accepted count, next)) :
    stdout.drain = drain ⟨next, stdout.held.drop count⟩ := by
  rw [drain, drained_of_accepted hh hw]
  rfl

theorem drain_of_failed {error : IoError} {next : Descriptor} (hh : stdout.held ≠ [])
    (hw : stdout.descriptor.write [stdout.held] = (.failed error, next)) :
    stdout.drain = if error = .badDescriptor then (.done, ⟨next, []⟩)
      else (.failed error, ⟨next, stdout.held⟩) := by
  rw [drain, drained_of_failed hh hw]
  split <;> rfl

/-- A drain leads nowhere else, and leaves nothing held when it is done. -/
theorem target_drain (stdout : Stdout) :
    stdout.drain.2.descriptor.target = stdout.descriptor.target := by
  change stdout.drained.stdout.descriptor.target = _
  fun_induction drained stdout with
  | case1 => rfl
  | case2 stdout hh call next count ha ih => exact ih.trans (target_write _ _)
  | case3 stdout hh call next ha => exact target_write _ _
  | case4 stdout hh call next error ha => exact target_write _ _

theorem held_of_drain_done (hd : stdout.drain.1 = .done) : stdout.drain.2.held = [] := by
  change stdout.drained.answer = _ at hd
  change stdout.drained.stdout.held = _
  fun_induction drained stdout with
  | case1 stdout hh => exact hh
  | case2 stdout hh call next count ha ih => exact ih hd
  | case3 => rfl
  | case4 => cases hd

theorem drain_bad (hb : stdout.descriptor.Bad) :
    stdout.drain = (.done, ⟨stdout.descriptor, []⟩) := by
  by_cases hh : stdout.held = []
  · rw [drain_of_held_nil hh, ← hh]
  · rw [drain_of_failed hh (hb.write _), if_pos rfl]

theorem drain_refusing {error : IoError} (hr : stdout.descriptor.Refusing error) :
    stdout.drain = (if stdout.held = [] then .done else .failed error, stdout) := by
  by_cases hh : stdout.held = []
  · rw [drain_of_held_nil hh, if_pos hh]
  · have hp : 0 < Parts.size [stdout.held] := by simpa using List.length_pos_iff.mpr hh
    have hne : error ≠ .badDescriptor := by
      rcases hr with ⟨-, rfl⟩ | ⟨-, rfl⟩ <;> decide
    rw [drain_of_failed hh (hr.write hp (by simp [maxParts])), if_neg hne, if_neg hh]

theorem drain_of_nothing_fits (ha : stdout.descriptor.Accepting) (hh : stdout.held ≠ [])
    (hf : stdout.descriptor.fitting stdout.held = []) :
    stdout.drain = (.failed .fileTooLarge, stdout) := by
  have hp : 0 < Parts.size [stdout.held] := by simpa using List.length_pos_iff.mpr hh
  have hw := ha.write hp (by simp [maxParts])
  rw [List.flatten_singleton, if_pos hf] at hw
  rw [drain_of_failed hh hw, if_neg (by decide)]

/-- A drain sends what fits of what is held, and fails if that is not all of it. -/
theorem drain_accepting (ha : stdout.descriptor.Accepting) :
    stdout.drain =
      (if stdout.descriptor.excess stdout.held = [] then .done else .failed .fileTooLarge,
        ⟨stdout.descriptor.store (stdout.descriptor.fitting stdout.held),
          stdout.descriptor.excess stdout.held⟩) := by
  by_cases hh : stdout.held = []
  · rw [drain_of_held_nil hh, hh, excess_nil, fitting_nil, store_nil, if_pos rfl, ← hh]
  · by_cases hf : stdout.descriptor.fitting stdout.held = []
    · have he : stdout.descriptor.excess stdout.held = stdout.held := by
        rw [excess, hf, List.length_nil, List.drop_zero]
      rw [drain_of_nothing_fits ha hh hf, he, hf, store_nil, if_neg hh]
    · have hp : 0 < Parts.size [stdout.held] := by simpa using List.length_pos_iff.mpr hh
      have hw := ha.write hp (by simp [maxParts])
      rw [List.flatten_singleton, if_neg hf] at hw
      rw [drain_of_accepted hh hw]
      change drain ⟨_, stdout.descriptor.excess stdout.held⟩ = _
      -- The first write was cut short by the limit, so a second one takes nothing.
      by_cases he : stdout.descriptor.excess stdout.held = []
      · rw [drain_of_held_nil he, if_pos he]
      · rw [drain_of_nothing_fits (ha.store _) he (fitting_excess _ _), if_neg he]

/-! ## Writes -/

theorem target_write (stdout : Stdout) (parts : Parts) :
    (stdout.write parts).2.descriptor.target = stdout.descriptor.target := by
  have hd := stdout.target_drain
  cases h : stdout.drain with
  | mk answer next =>
    rw [h] at hd
    cases answer with
    | failed error =>
      rw [write_of_drain_failed h]
      exact hd
    | done =>
      rw [write_of_drain_done h]
      exact (Descriptor.target_write _ _).trans hd

theorem write_bad (hb : stdout.descriptor.Bad) (parts : Parts) :
    stdout.write parts = (.failed .badDescriptor, ⟨stdout.descriptor, []⟩) := by
  rw [write_of_drain_done (drain_bad hb), hb.write]

theorem write_refusing {error : IoError} (hr : stdout.descriptor.Refusing error) {parts : Parts}
    (hp : 0 < parts.size) (hl : parts.length ≤ maxParts) :
    stdout.write parts = (.failed error, stdout) := by
  have hd := drain_refusing hr
  by_cases hh : stdout.held = []
  · rw [if_pos hh] at hd
    rw [write_of_drain_done hd, hr.write hp hl]
  · rw [if_neg hh] at hd
    rw [write_of_drain_failed hd]

/-- A write behind more than fits takes nothing of its parts. -/
theorem write_of_excess (ha : stdout.descriptor.Accepting)
    (he : stdout.descriptor.excess stdout.held ≠ []) (parts : Parts) :
    stdout.write parts =
      (.failed .fileTooLarge, ⟨stdout.descriptor.store (stdout.descriptor.fitting stdout.held),
        stdout.descriptor.excess stdout.held⟩) := by
  have hd := drain_accepting ha
  rw [if_neg he] at hd
  rw [write_of_drain_failed hd]

theorem write_accepting (ha : stdout.descriptor.Accepting)
    (he : stdout.descriptor.excess stdout.held = []) (parts : Parts) :
    stdout.write parts =
      (((stdout.descriptor.store stdout.held).write parts).1,
        ⟨((stdout.descriptor.store stdout.held).write parts).2, []⟩) := by
  have hd := drain_accepting ha
  rw [if_pos he, (excess_eq_nil_iff _ _).mp he, he] at hd
  rw [write_of_drain_done hd]

/-! ## The write loop -/

theorem length_dropEmpty_parts_le (message : Message) :
    message.parts.dropEmpty.length ≤ maxParts := by
  have hd : message.parts.dropEmpty.length ≤ message.parts.length :=
    (List.dropWhile_sublist _).length_le
  have hp : message.parts.length ≤ 2 := by
    rcases message with ⟨_ | _, content⟩ | value <;> simp [Message.parts]
  unfold maxParts
  omega

theorem writeAll_bad (hb : stdout.descriptor.Bad) {parts : Parts} (hp : parts ≠ []) :
    writeAll stdout parts =
      ⟨[⟨parts, .failed .badDescriptor⟩], .failed .badDescriptor, ⟨stdout.descriptor, []⟩⟩ :=
  writeAll_of_failed hp (write_bad hb parts) (by decide)

theorem writeAll_refusing {error : IoError} (hr : stdout.descriptor.Refusing error)
    {parts : Parts} (ht : parts.Trimmed) (hp : parts ≠ []) (hl : parts.length ≤ maxParts) :
    writeAll stdout parts = ⟨[⟨parts, .failed error⟩], .failed error, stdout⟩ := by
  have hk : error.kind ≠ .interrupted := by
    rcases hr with ⟨-, rfl⟩ | ⟨-, rfl⟩ <;> decide
  exact writeAll_of_failed hp (write_refusing hr (ht.size_pos hp) hl) hk

theorem writeAll_of_nothing_fits (ha : stdout.descriptor.Accepting)
    (he : stdout.descriptor.excess stdout.held = []) {parts : Parts} (ht : parts.Trimmed)
    (hp : parts ≠ []) (hl : parts.length ≤ maxParts)
    (hf : (stdout.descriptor.store stdout.held).fitting parts.flatten = []) :
    writeAll stdout parts =
      ⟨[⟨parts, .failed .fileTooLarge⟩], .failed .fileTooLarge,
        ⟨stdout.descriptor.store stdout.held, []⟩⟩ := by
  have hw := write_accepting ha he parts
  rw [(ha.store _).write (ht.size_pos hp) hl, if_pos hf] at hw
  exact writeAll_of_failed hp hw (by decide)

/-- Behind a write that took all that fits, the loop takes nothing more. -/
theorem writeAll_of_rest {descriptor : Descriptor} (ha : descriptor.Accepting) {rest : Parts}
    (ht : rest.Trimmed) (hl : rest.length ≤ maxParts) (hf : descriptor.fitting rest.flatten = []) :
    (writeAll (Stdout.mk descriptor []) rest).ending =
        (if rest.flatten = [] then .complete else .failed .fileTooLarge) ∧
      (writeAll (Stdout.mk descriptor []) rest).sink = ⟨descriptor, []⟩ := by
  by_cases hr : rest = []
  · rw [hr, writeAll_nil]
    exact ⟨rfl, rfl⟩
  · have hne : rest.flatten ≠ [] := List.length_pos_iff.mp (ht.size_pos hr)
    have ha' : (Stdout.mk descriptor []).descriptor.Accepting := ha
    rw [writeAll_of_nothing_fits ha' (excess_nil _) ht hr hl (by rwa [store_nil]), store_nil,
      if_neg hne]
    exact ⟨rfl, rfl⟩

/-- The loop sends what fits of what is held and the parts behind it. -/
theorem writeAll_accepting (ha : stdout.descriptor.Accepting) {parts : Parts} (ht : parts.Trimmed)
    (hp : parts ≠ []) (hl : parts.length ≤ maxParts) :
    (writeAll stdout parts).ending =
        (if stdout.descriptor.excess (stdout.held ++ parts.flatten) = [] then .complete
          else .failed .fileTooLarge) ∧
      (writeAll stdout parts).sink =
        ⟨stdout.descriptor.store (stdout.descriptor.fitting (stdout.held ++ parts.flatten)),
          stdout.descriptor.excess stdout.held⟩ := by
  have hsize := ht.size_pos hp
  rw [fitting_append, excess_append]
  by_cases he : stdout.descriptor.excess stdout.held = []
  · rw [he, List.nil_append, (excess_eq_nil_iff _ _).mp he, ← store_store]
    by_cases hf : (stdout.descriptor.store stdout.held).fitting parts.flatten = []
    · have hne := excess_ne_nil_of_fitting (List.length_pos_iff.mp hsize) hf
      rw [writeAll_of_nothing_fits ha he ht hp hl hf, hf, store_nil, if_neg hne]
      exact ⟨rfl, rfl⟩
    · have hw := write_accepting ha he parts
      rw [(ha.store _).write hsize hl, if_neg hf] at hw
      obtain ⟨rest, hrest⟩ := Parts.exists_advance? (fitting_begins _ parts.flatten).length_le
      have hflat : rest.flatten = (stdout.descriptor.store stdout.held).excess parts.flatten :=
        Parts.flatten_advance? hrest
      have hnext := fitting_excess (stdout.descriptor.store stdout.held) parts.flatten
      have hlen := Nat.le_trans (Parts.length_advance?_le hrest) hl
      rw [writeAll_of_accepted hp hw (List.length_pos_iff.mpr hf) hrest]
      rw [← hflat] at hnext ⊢
      exact writeAll_of_rest ((ha.store _).store _) (Parts.trimmed_advance? hrest) hlen hnext
  · rw [fitting_store_of_excess he, List.append_nil, if_neg (by simp [he]),
      writeAll_of_failed hp (write_of_excess ha he parts) (by decide)]
    exact ⟨rfl, rfl⟩

end Outlet.Stdout
