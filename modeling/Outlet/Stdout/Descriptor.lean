import Outlet.Sink

/-!
# The descriptor of standard output

What the system does with a write to the descriptor, by where the descriptor leads. A write either
takes bytes from the front of what it is given, at least one if there are any, or fails and takes
none. It never fails as interrupted.
-/

namespace Outlet

namespace IoError

def badDescriptor : IoError := .system 9

def invalidArgument : IoError := .system 22

def fileTooLarge : IoError := .system 27

def noSpace : IoError := .system 28

def brokenPipe : IoError := .system 32

end IoError

inductive Target where
  /-- A file, or a pipe that is read. -/
  | file
  | closed
  | readonly
  /-- A device without space. -/
  | full
  /-- A pipe that nobody reads. -/
  | brokenPipe
  /-- A device that forgets what it takes. -/
  | null
  deriving DecidableEq

structure Descriptor where
  target : Target
  /-- The greatest length of the file, if it is limited. -/
  limit : Option Nat
  /-- All that has reached the file. -/
  file : Bytes
  deriving DecidableEq

namespace Descriptor

/-- The most parts of one write. -/
def maxParts : Nat := 1024

/-- The greatest length of a file under a setting. The system reads the setting as a number with a
sign: all ones set no limit, and under any other negative number there is room for nothing. -/
def lengthLimit? (setting : UInt64) : Option Nat :=
  let length := setting.toInt64
  if length = -1 then none else some length.toNatClampNeg

/-- How many more bytes the target takes, if there is a limit. -/
def room? (descriptor : Descriptor) : Option Nat :=
  match descriptor.target with
  | .file => descriptor.limit.map (· - descriptor.file.length)
  | _ => none

/-- Why a write fails, if it does. -/
def fault? (descriptor : Descriptor) (parts : Parts) : Option IoError :=
  match descriptor.target with
  | .closed | .readonly => some .badDescriptor
  | target =>
    if maxParts < parts.length then some .invalidArgument
    else if parts.size = 0 then none
    else match target with
      | .full => some .noSpace
      | .brokenPipe => some .brokenPipe
      | _ => if descriptor.room? = some 0 then some .fileTooLarge else none

/-- The bytes of a text that there is room for. -/
def fitting (descriptor : Descriptor) (text : Bytes) : Bytes :=
  match descriptor.room? with
  | some room => text.take room
  | none => text

/-- Takes bytes, which a file keeps. -/
def store (descriptor : Descriptor) (bytes : Bytes) : Descriptor :=
  match descriptor.target with
  | .file => { descriptor with file := descriptor.file ++ bytes }
  | _ => descriptor

def write (descriptor : Descriptor) (parts : Parts) : WriteAnswer × Descriptor :=
  match descriptor.fault? parts with
  | some error => (.failed error, descriptor)
  | none =>
    let taken := descriptor.fitting parts.flatten
    (.accepted taken.length, descriptor.store taken)

theorem length_fitting_le (descriptor : Descriptor) (text : Bytes) :
    (descriptor.fitting text).length ≤ text.length := by
  rw [fitting]
  split
  · rw [List.length_take]; omega
  · exact Nat.le_refl _

theorem kind_fault?_ne_interrupted {descriptor : Descriptor} {parts : Parts} {error : IoError}
    (h : descriptor.fault? parts = some error) : error.kind ≠ .interrupted := by
  have hk : ∀ error ∈ [IoError.badDescriptor, .invalidArgument, .noSpace, .brokenPipe,
      .fileTooLarge], error.kind ≠ .interrupted := by decide
  apply hk
  grind [fault?]

theorem kind_write_ne_interrupted {descriptor : Descriptor} {parts : Parts} {error : IoError}
    (h : (descriptor.write parts).1 = .failed error) : error.kind ≠ .interrupted := by
  rw [write] at h
  split at h
  next hf =>
    obtain rfl := WriteAnswer.failed.inj h
    exact kind_fault?_ne_interrupted hf
  next => simp at h

theorem accepted_le_size {descriptor : Descriptor} {parts : Parts} {count : Nat}
    (h : (descriptor.write parts).1 = .accepted count) : count ≤ parts.size := by
  rw [write] at h
  split at h
  next => simp at h
  next =>
    obtain rfl := WriteAnswer.accepted.inj h
    exact length_fitting_le _ _

/-- A write of some bytes that does not fail takes at least one. -/
theorem accepted_pos {descriptor : Descriptor} {parts : Parts} {count : Nat}
    (h : (descriptor.write parts).1 = .accepted count) (hp : 0 < parts.size) : 0 < count := by
  rw [write] at h
  split at h
  next => simp at h
  next hf =>
    obtain rfl := WriteAnswer.accepted.inj h
    rw [fitting]
    split
    next room hr =>
      have hroom : room ≠ 0 := by
        rintro rfl
        have ht : descriptor.target = .file := by
          cases h : descriptor.target <;> simp [room?, h] at hr ⊢
        simp only [fault?, ht, hr] at hf
        split at hf
        next => simp at hf
        next =>
          rw [if_neg (Nat.ne_of_gt hp)] at hf
          simp at hf
      rw [List.length_take]
      simp only [Parts.size] at hp
      omega
    next => exact hp

end Descriptor

end Outlet
