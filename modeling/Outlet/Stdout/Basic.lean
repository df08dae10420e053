import Outlet.Delivery
import Outlet.Stdout.Descriptor

/-!
# Standard output

Standard output is a descriptor and the bytes that were printed past the calls and are still held
back. Whatever is written goes behind what is held, so a write drains first, and if that fails
then nothing of the write itself has gone out. A drain that meets a bad descriptor drops what is
held and counts as done.

Printing holds back what stands behind the last newline. There is room for `capacity` bytes, and a
text that would fill it by itself is never held.
-/

namespace Outlet

structure Stdout where
  descriptor : Descriptor
  /-- What has been printed and not been sent to the descriptor. -/
  held : Bytes
  deriving DecidableEq

namespace Stdout

/-- An answer of standard output, with the raw writes to the descriptor that were made for it and
what they left. -/
structure Logged (α : Type) where
  calls : List WriteCall
  answer : α
  stdout : Stdout

def Logged.after {α : Type} (call : WriteCall) (logged : Logged α) : Logged α :=
  { logged with calls := call :: logged.calls }

/-- Sends what is held to the descriptor, with a record of the raw writes. -/
def drained (stdout : Stdout) : Logged FlushAnswer :=
  if _hh : stdout.held = [] then ⟨[], .done, stdout⟩
  else
    let call : WriteCall := ⟨[stdout.held], (stdout.descriptor.write [stdout.held]).1⟩
    let next := (stdout.descriptor.write [stdout.held]).2
    match _ha : (stdout.descriptor.write [stdout.held]).1 with
    | .accepted count => (drained ⟨next, stdout.held.drop count⟩).after call
    | .failed error =>
      if error = .badDescriptor then ⟨[call], .done, ⟨next, []⟩⟩
      else ⟨[call], .failed error, ⟨next, stdout.held⟩⟩
termination_by stdout.held.length
decreasing_by
  have hl : 0 < stdout.held.length := List.length_pos_iff.2 _hh
  have := Descriptor.accepted_pos _ha (by simpa using hl)
  simp only [List.length_drop]
  omega

def drain (stdout : Stdout) : FlushAnswer × Stdout := (stdout.drained.answer, stdout.drained.stdout)

/-- The raw writes of a drain. -/
def drainCalls (stdout : Stdout) : List WriteCall := stdout.drained.calls

/-- Drains, then sends the parts to the descriptor in one raw write. -/
def written (stdout : Stdout) (parts : Parts) : Logged WriteAnswer :=
  match stdout.drained with
  | ⟨calls, .failed error, stdout⟩ => ⟨calls, .failed error, stdout⟩
  | ⟨calls, .done, stdout⟩ =>
    let (answer, descriptor) := stdout.descriptor.write parts
    ⟨calls ++ [⟨parts, answer⟩], answer, { stdout with descriptor }⟩

def write (stdout : Stdout) (parts : Parts) : WriteAnswer × Stdout :=
  ((stdout.written parts).answer, (stdout.written parts).stdout)

/-- The raw writes of a write: those of its drain, and one of its own if the drain is done. -/
def writeCalls (stdout : Stdout) (parts : Parts) : List WriteCall := (stdout.written parts).calls

/-! ## Printing -/

/-- The most bytes that are held back. -/
def capacity : Nat := 1024

/-- Goes on after a success only. -/
def andThen (result : FlushAnswer × Stdout) (next : Stdout → FlushAnswer × Stdout) :
    FlushAnswer × Stdout :=
  match result with
  | (.done, stdout) => next stdout
  | (.failed error, stdout) => (.failed error, stdout)

/-- Sends bytes to the descriptor past what is held. Those that it does not take are lost. -/
def pass (stdout : Stdout) (bytes : Bytes) : FlushAnswer × Stdout :=
  let (answer, sent) := drain ⟨stdout.descriptor, bytes⟩
  (answer, { stdout with descriptor := sent.descriptor })

/-- Drains if there is no room for some bytes behind what is held. -/
def makeRoom (stdout : Stdout) (bytes : Bytes) : FlushAnswer × Stdout :=
  if stdout.held.length + bytes.length ≤ capacity then (.done, stdout) else stdout.drain

/-- Holds bytes back behind what is held. -/
def hold (stdout : Stdout) (bytes : Bytes) : FlushAnswer × Stdout :=
  andThen (stdout.makeRoom bytes) fun stdout =>
    if bytes.length < capacity then (.done, { stdout with held := stdout.held ++ bytes })
    else stdout.pass bytes

/-- Prints complete lines. If there are none, a line that an earlier failure left is tried again. -/
def printLines (stdout : Stdout) (lines : Bytes) : FlushAnswer × Stdout :=
  if lines = [] then
    if stdout.held.getLast? = some Bytes.newline then stdout.drain else (.done, stdout)
  else if stdout.held = [] then stdout.pass lines
  else andThen (stdout.hold lines) drain

/-- Prints a text past the calls. Behind a failure nothing more of the text is printed or held. -/
def print (stdout : Stdout) (text : Bytes) : FlushAnswer × Stdout :=
  let (lines, tail) := Bytes.splitLines text
  andThen (stdout.printLines lines) (·.hold tail)

/-! ## Standard output as a sink -/

theorem written_of_failed {stdout : Stdout} {error : IoError} (h : stdout.drain.1 = .failed error)
    (parts : Parts) : stdout.written parts = ⟨stdout.drainCalls, .failed error, stdout.drain.2⟩ := by
  rw [written]
  split
  next hd =>
    rw [drain, hd] at h ⊢
    rw [drainCalls, hd, ← FlushAnswer.failed.inj h]
  next hd =>
    rw [drain, hd] at h
    cases h

theorem written_of_done {stdout : Stdout} (h : stdout.drain.1 = .done) (parts : Parts) :
    stdout.written parts =
      ⟨stdout.drainCalls ++ [⟨parts, (stdout.drain.2.descriptor.write parts).1⟩],
        (stdout.drain.2.descriptor.write parts).1,
        ⟨(stdout.drain.2.descriptor.write parts).2, stdout.drain.2.held⟩⟩ := by
  rw [written]
  split
  next hd =>
    rw [drain, hd] at h
    cases h
  next hd =>
    rw [drain, drainCalls, hd]

theorem kind_drain_ne_interrupted {stdout : Stdout} {error : IoError}
    (h : stdout.drain.1 = .failed error) : error.kind ≠ .interrupted := by
  change stdout.drained.answer = _ at h
  fun_induction drained stdout with
  | case1 => cases h
  | case2 _ _ _ _ _ _ ih => exact ih h
  | case3 => cases h
  | case4 stdout _ _ _ _ ha =>
    obtain rfl := FlushAnswer.failed.inj h
    exact Descriptor.kind_write_ne_interrupted ha

theorem write_of_drain_failed {stdout next : Stdout} {error : IoError}
    (hd : stdout.drain = (.failed error, next)) (parts : Parts) :
    stdout.write parts = (.failed error, next) := by
  rw [write, written_of_failed (congrArg Prod.fst hd), hd]

theorem write_of_drain_done {stdout next : Stdout} (hd : stdout.drain = (.done, next))
    (parts : Parts) :
    stdout.write parts =
      ((next.descriptor.write parts).1, ⟨(next.descriptor.write parts).2, next.held⟩) := by
  rw [write, written_of_done (congrArg Prod.fst hd), hd]

/-- A write answers as its drain if that fails, and else as its own raw write. -/
theorem fst_write (stdout : Stdout) (parts : Parts) :
    (∃ error, stdout.drain.1 = .failed error ∧ (stdout.write parts).1 = .failed error) ∨
      ∃ descriptor : Descriptor, (stdout.write parts).1 = (descriptor.write parts).1 := by
  cases hd : stdout.drain with
  | mk answer next =>
    cases answer with
    | failed error => exact .inl ⟨error, rfl, congrArg Prod.fst (write_of_drain_failed hd parts)⟩
    | done => exact .inr ⟨next.descriptor, congrArg Prod.fst (write_of_drain_done hd parts)⟩

theorem kind_write_ne_interrupted {stdout : Stdout} {parts : Parts} {error : IoError}
    (h : (stdout.write parts).1 = .failed error) : error.kind ≠ .interrupted := by
  rcases stdout.fst_write parts with ⟨error', hd, hw⟩ | ⟨descriptor, hw⟩
  · obtain rfl := WriteAnswer.failed.inj (hw.symm.trans h)
    exact kind_drain_ne_interrupted hd
  · exact Descriptor.kind_write_ne_interrupted (hw.symm.trans h)

instance : Sink Stdout where
  visible _ parts := parts
  write := write
  flush := drain
  patience _ := 0
  patience_lt_or_eq _ _ _ h hi := absurd hi (kind_write_ne_interrupted h)

instance : ReliableSink Stdout where
  accepted_le stdout parts count h := by
    change (stdout.write parts).1 = _ at h
    rcases stdout.fst_write parts with ⟨error, -, hw⟩ | ⟨descriptor, hw⟩
    · cases hw.symm.trans h
    · exact Descriptor.accepted_le_size (hw.symm.trans h)
  patience_lt _ _ _ h hi := absurd hi (kind_write_ne_interrupted h)

end Stdout

end Outlet
