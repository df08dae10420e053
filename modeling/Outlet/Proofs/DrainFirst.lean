import Outlet.Proofs.Faults
import Outlet.Proofs.Lines

/-!
# What is held goes first

A write to standard output is a flush and then one raw write of its own. What was held has gone out
ahead of the bytes that the write reports, and a write that fails has sent none of its bytes: it
leaves what the flush alone would have left. How a text is cut into parts makes no difference while
there are no more parts than the system takes at once.
-/

namespace Outlet.Stdout

open WriteCall Descriptor

variable {stdout : Stdout} {parts : Parts}

/-! ## The flush ahead of a write -/

/-- A flush succeeds exactly if it leaves nothing held. -/
theorem drain_done_iff (stdout : Stdout) :
    stdout.drain.1 = .done ↔ stdout.drain.2.held = [] := by
  constructor
  · exact held_of_drain_done
  · intro h
    change stdout.drained.stdout.held = _ at h
    change stdout.drained.answer = _
    fun_induction drained stdout with
    | case1 | case3 => rfl
    | case2 stdout hh call next count ha ih => exact ih h
    | case4 stdout hh call next error ha => exact absurd h hh

/-- A write that is accepted makes its own raw write behind those of its drain. -/
theorem writeCalls_of_accepted {count : Nat} (h : (stdout.write parts).1 = .accepted count) :
    stdout.drain.1 = .done ∧
      stdout.writeCalls parts = stdout.drainCalls ++ [⟨parts, .accepted count⟩] := by
  rcases stdout.write_cases parts with ⟨error, -, hw, -⟩ | ⟨hd, hw, hc⟩
  · rw [hw] at h
    cases h
  · rw [hw] at h
    rw [hc, h]
    exact ⟨hd, rfl⟩

/-- The raw writes of a write that fails take no more than those of its drain. -/
theorem takenBy_writeCalls_of_failed {error : IoError}
    (h : (stdout.write parts).1 = .failed error) :
    takenBy (stdout.writeCalls parts) = takenBy stdout.drainCalls := by
  rw [takenBy_writeCalls, h, taken_failed, List.append_nil]

/-- A write that fails leaves what a flush leaves. -/
theorem snd_write_of_failed {error : IoError} (h : (stdout.write parts).1 = .failed error) :
    (stdout.write parts).2 = stdout.drain.2 := by
  rw [snd_write, h, taken_failed, store_nil]

/-- A write that is accepted has sent all that was held. -/
theorem takenBy_drainCalls_of_accepted {count : Nat}
    (h : (stdout.write parts).1 = .accepted count) :
    takenBy stdout.drainCalls = stdout.held := by
  have hb : ¬ stdout.descriptor.Bad := by
    intro hb
    rw [write_bad hb] at h
    cases h
  have hbalance := drain_balance hb
  rwa [held_of_drain_done (writeCalls_of_accepted h).1, List.append_nil] at hbalance

theorem snd_write_of_accepted {count : Nat} (h : (stdout.write parts).1 = .accepted count) :
    (stdout.write parts).2 =
      ⟨stdout.descriptor.store (stdout.held ++ parts.flatten.take count), []⟩ := by
  rw [snd_write, h, descriptor_drain, takenBy_drainCalls_of_accepted h, store_store,
    held_of_drain_done (writeCalls_of_accepted h).1, taken_accepted]

/-! ## Where a flush leads -/

/-- Whatever a flush sends is the front of what was held. -/
theorem takenBy_drainCalls_prefix (stdout : Stdout) : takenBy stdout.drainCalls <+: stdout.held := by
  by_cases hb : stdout.descriptor.Bad
  · rw [takenBy_drainCalls_of_not_accepting hb.not_accepting]
    exact List.nil_prefix
  · exact ⟨stdout.drain.2.held, drain_balance hb⟩

/-- On the null device and on a bad descriptor a flush adds nothing to the file and leaves nothing
held. -/
theorem drain_of_forgetful (h : stdout.descriptor.target ∈ [.null, .closed, .readonly]) :
    stdout.drain = (.done, ⟨stdout.descriptor, []⟩) := by
  rcases List.mem_cons.mp h with ht | hb
  · have hne : stdout.descriptor.target ≠ .file := by
      rw [ht]
      decide
    have hu : stdout.descriptor.Unlimited := .inl hne
    rw [drain_accepting (.inr ht), hu.excess, if_pos rfl, store_of_ne_file hne]
  · simp only [List.mem_cons, List.not_mem_nil, or_false] at hb
    exact drain_bad hb

/-- On a file and on a target that fails, a flush adds to the file what is no longer held. -/
theorem drain_of_keeping (h : stdout.descriptor.target ∈ [.file, .full, .brokenPipe]) :
    ∃ sent, stdout.drain.2.descriptor.file = stdout.descriptor.file ++ sent ∧
      sent ++ stdout.drain.2.held = stdout.held := by
  rcases List.mem_cons.mp h with ht | hr
  · have hb : ¬ stdout.descriptor.Bad := by
      intro hb
      rcases hb with h | h <;> cases ht.symm.trans h
    refine ⟨takenBy stdout.drainCalls, ?_, drain_balance hb⟩
    rw [descriptor_drain, store_of_file ht]
  · have hrefusing : ∃ error, stdout.descriptor.Refusing error := by
      simp only [List.mem_cons, List.not_mem_nil, or_false] at hr
      rcases hr with ht | ht
      · exact ⟨_, .inl ⟨ht, rfl⟩⟩
      · exact ⟨_, .inr ⟨ht, rfl⟩⟩
    obtain ⟨error, hr⟩ := hrefusing
    rw [drain_refusing hr]
    exact ⟨[], (List.append_nil _).symm, rfl⟩

/-! ## Writes -/

/-- A write that reports some bytes has sent all that was held ahead of them. A write that fails has
sent none of its own bytes, and leaves what is left of those held, or nothing where the descriptor
keeps nothing. While there are not too many parts, only the bytes in them count. A flush does what
every write does first, and succeeds exactly if it leaves nothing held. -/
theorem write_drains_first (stdout : Stdout) (parts : Parts) :
    let answer := (Sink.write stdout parts).1
    let next := (Sink.write stdout parts).2
    let flushed := (Sink.flush stdout).2
    (∀ count, answer = .accepted count →
        count ≤ parts.size ∧
          stdout.writeCalls parts = stdout.drainCalls ++ [⟨parts, .accepted count⟩] ∧
          takenBy stdout.drainCalls = stdout.held ∧
          next = ⟨stdout.descriptor.store (stdout.held ++ parts.flatten.take count), []⟩ ∧
          (stdout.descriptor.target = .file →
            next.descriptor.file =
              stdout.descriptor.file ++ stdout.held ++ parts.flatten.take count)) ∧
      (∀ error, answer = .failed error →
        takenBy (stdout.writeCalls parts) = takenBy stdout.drainCalls ∧
          takenBy stdout.drainCalls <+: stdout.held ∧
          (stdout.descriptor.target ∈ [.file, .full, .brokenPipe] →
            ∃ sent, next.descriptor.file = stdout.descriptor.file ++ sent ∧
              sent ++ next.held = stdout.held) ∧
          (stdout.descriptor.target ∈ [.null, .closed, .readonly] →
            next.descriptor.file = stdout.descriptor.file ∧ next.held = [])) ∧
      (parts.length ≤ maxParts →
        (∀ parts' : Parts, parts'.length ≤ maxParts → parts'.flatten = parts.flatten →
          Sink.write stdout parts' = Sink.write stdout parts) ∧
          Sink.write stdout [parts.flatten] = Sink.write stdout parts) ∧
      next = ⟨flushed.descriptor.store (taken ⟨parts, answer⟩), flushed.held⟩ ∧
      ((Sink.flush stdout).1 = .done ↔ flushed.held = []) := by
  intro answer next flushed
  refine ⟨?_, ?_, ?_, stdout.snd_write parts, stdout.drain_done_iff⟩
  · intro count h
    have hnext : next = ⟨stdout.descriptor.store (stdout.held ++ parts.flatten.take count), []⟩ :=
      snd_write_of_accepted h
    refine ⟨ReliableSink.accepted_le stdout parts count h, (writeCalls_of_accepted h).2,
      takenBy_drainCalls_of_accepted h, hnext, ?_⟩
    intro ht
    rw [hnext, store_of_file ht, List.append_assoc]
  · intro error h
    have hnext : next = flushed := snd_write_of_failed h
    rw [hnext]
    refine ⟨takenBy_writeCalls_of_failed h, stdout.takenBy_drainCalls_prefix, drain_of_keeping, ?_⟩
    intro ht
    have hflushed : flushed = ⟨stdout.descriptor, []⟩ := congrArg Prod.snd (drain_of_forgetful ht)
    rw [hflushed]
    exact ⟨rfl, rfl⟩
  · intro hl
    have hwrite (parts' : Parts) (hl' : parts'.length ≤ maxParts)
        (hf : parts'.flatten = parts.flatten) : Sink.write stdout parts' = Sink.write stdout parts :=
      gathering.write stdout parts parts' trivial hl hl' hf
    refine ⟨hwrite, hwrite [parts.flatten] ?_ (List.flatten_singleton)⟩
    rw [List.length_singleton]
    decide

/-- A write that is cut short in its second part behind what was held, and one that finds no room
left by what was held. -/
theorem write_drains_first_cut_short :
    let roomy : Stdout := ⟨⟨.file, some 3, []⟩, [97]⟩
    let tight : Stdout := ⟨⟨.file, some 3, [120, 121]⟩, [97, 98]⟩
    let parts : Parts := [[99], [], [100, 101]]
    Sink.write roomy parts = (.accepted 2, ⟨⟨.file, some 3, [97, 99, 100]⟩, []⟩) ∧
      Sink.write roomy [[99, 100, 101]] = Sink.write roomy parts ∧
      Sink.write tight parts = (.failed .fileTooLarge, (Sink.flush tight).2) ∧
      takenBy (tight.writeCalls parts) = takenBy tight.drainCalls ∧
      ∃ sent, (Sink.flush tight).2.descriptor.file = [120, 121] ++ sent ∧
        sent ++ (Sink.flush tight).2.held = [97, 98] := by
  intro roomy tight parts
  have haccepted : (Sink.write roomy parts).1 = .accepted 2 := by
    change (roomy.write parts).1 = _
    rw [write_accepting (.inl rfl) rfl]
    rfl
  have hfailed : (Sink.write tight parts).1 = .failed .fileTooLarge := by
    change (tight.write parts).1 = _
    rw [write_of_excess (.inl rfl) (by decide)]
  obtain ⟨hroomy, -, hcut, -, -⟩ := write_drains_first roomy parts
  obtain ⟨-, htight, -, hnext, -⟩ := write_drains_first tight parts
  obtain ⟨-, -, -, hstate, -⟩ := hroomy 2 haccepted
  obtain ⟨htaken, -, hkept, -⟩ := htight .fileTooLarge hfailed
  rw [hfailed, taken_failed, store_nil] at hnext
  rw [hnext] at hkept
  exact ⟨Prod.ext haccepted hstate, (hcut (by decide)).2, Prod.ext hfailed hnext, htaken,
    hkept List.mem_cons_self⟩

end Outlet.Stdout
