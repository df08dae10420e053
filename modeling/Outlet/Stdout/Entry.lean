import Outlet.Stdout.Basic

/-!
# Entry points

The calls on standard output that programs in other languages link against. There are two families
of them, by how a string of bytes is passed: with its length, or closed by a zero byte. A null
pointer stands for the empty string; only with a length other than zero is it an error.
-/

namespace Outlet

inductive Family where
  | sized
  | terminated
  deriving DecidableEq

/-- A call of an entry point. What a pointer points at is `none` for a null pointer. -/
inductive Entry where
  | sized (shape : Shape) (memory : Option Bytes) (length : Nat)
  | terminated (shape : Shape) (memory : Option Bytes)
  | integer (family : Family) (value : Int64)
  deriving DecidableEq

namespace Entry

def sizedBytes : Option Bytes → Nat → Except CallError Bytes
  | some memory, length => .ok (memory.take length)
  | none, 0 => .ok []
  | none, length + 1 => .error (.nullMessage (length + 1))

/-- The bytes at a pointer before the first zero. -/
def terminatedBytes (memory : Option Bytes) : Bytes :=
  (memory.getD []).takeWhile (· ≠ 0)

def message : Entry → Except CallError Message
  | sized shape memory length => (sizedBytes memory length).map (.bytes shape)
  | terminated shape memory => .ok (.bytes shape (terminatedBytes memory))
  | integer _ value => .ok (.integer value)

/-- The name under which a failure is traced. -/
def name : Entry → String
  | sized .string _ _ => "stlib_write_string"
  | sized .line _ _ => "stlib_write_line"
  | terminated .string _ => "write_string"
  | terminated .line _ => "write_line"
  | integer _ _ => "write_integer"

def run (stdout : Stdout) (entry : Entry) : CallResult × Stdout :=
  match entry.message with
  | .ok message => send stdout message
  | .error error => reject stdout error

end Entry

end Outlet
