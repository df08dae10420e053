/-!
# Byte strings and their parts

A text reaches a sink as a list of parts. Only the concatenation of the parts is ever written;
`Parts.advance?` gives up the bytes a sink has reported and leaves the others in the parts they
were in. The lemmas say that nothing is lost or reordered on the way, and that the one way to
fail is to give up more bytes than there are.
-/

namespace Outlet

abbrev Bytes := List UInt8

/-- A text in the pieces in which it is handed to a sink. -/
abbrev Parts := List Bytes

namespace Bytes

def newline : UInt8 := 10

/-- The complete lines of a text, and the unfinished one after its last newline. -/
def splitLines : Bytes → Bytes × Bytes
  | [] => ([], [])
  | b :: rest =>
    let (lines, tail) := splitLines rest
    if lines = [] ∧ b ≠ newline then ([], b :: tail) else (b :: lines, tail)

theorem splitLines_append (text : Bytes) :
    (splitLines text).1 ++ (splitLines text).2 = text := by
  induction text with
  | nil => rfl
  | cons b rest ih =>
    simp only [splitLines]
    split
    next h => simpa [h.1] using ih
    next => simpa using ih

/-- The unfinished line holds no newline. -/
theorem newline_notMem_splitLines (text : Bytes) : newline ∉ (splitLines text).2 := by
  induction text with
  | nil => simp [splitLines]
  | cons b rest ih =>
    simp only [splitLines]
    split
    next h => simpa [ih] using fun e => h.2 e.symm
    next => exact ih

/-- The front of two texts is the front of the first, and of the second as far as it goes. -/
theorem take_append_take (limit : Nat) (before text : Bytes) :
    before.take limit ++ text.take (limit - (before.take limit).length) =
      (before ++ text).take limit := by
  rw [List.take_append, List.length_take]
  congr 2
  omega

end Bytes

namespace Parts

def size (parts : Parts) : Nat := parts.flatten.length

/-- The parts without their first `n` bytes and without the empty parts then in front;
`none` if there are fewer than `n` bytes. -/
def advance? : Nat → Parts → Option Parts
  | 0, [] => some []
  | _ + 1, [] => none
  | n, part :: rest =>
    if part.length ≤ n then advance? (n - part.length) rest else some (part.drop n :: rest)

def dropEmpty (parts : Parts) : Parts := parts.dropWhile List.isEmpty

@[simp] theorem size_nil : size [] = 0 := rfl

@[simp] theorem size_cons (part : Bytes) (rest : Parts) :
    size (part :: rest) = part.length + size rest := by
  simp [size]

theorem advance?_zero (parts : Parts) : advance? 0 parts = some parts.dropEmpty := by
  induction parts with
  | nil => rfl
  | cons part rest ih =>
    cases part with
    | nil => simpa [advance?, dropEmpty] using ih
    | cons b part => simp [advance?, dropEmpty]

theorem advance?_eq_none_iff (n : Nat) (parts : Parts) :
    advance? n parts = none ↔ parts.size < n := by
  induction parts generalizing n with
  | nil => cases n <;> simp [advance?]
  | cons part rest ih =>
    rw [advance?]
    split
    next h => rw [ih, size_cons]; omega
    next h => simp only [size_cons, reduceCtorEq, false_iff]; omega

/-- What is left is the text from byte `n` on. -/
theorem flatten_advance? {n : Nat} {parts rest : Parts} (h : advance? n parts = some rest) :
    rest.flatten = parts.flatten.drop n := by
  induction parts generalizing n with
  | nil =>
    cases n with
    | zero => simp_all [advance?]
    | succ n => simp [advance?] at h
  | cons part tail ih =>
    rw [advance?] at h
    split at h
    next hle =>
      rw [ih h, List.flatten_cons, List.drop_append, List.drop_eq_nil_of_le hle, List.nil_append]
    next hlt =>
      obtain rfl := Option.some.inj h
      rw [List.flatten_cons, List.flatten_cons, List.drop_append_of_le_length (by omega)]

theorem size_advance? {n : Nat} {parts rest : Parts} (h : advance? n parts = some rest) :
    rest.size = parts.size - n := by
  simp [size, flatten_advance? h]

/-- After giving up bytes, the first part left is not empty. -/
theorem ne_nil_of_advance? {n : Nat} {parts rest : Parts} {part : Bytes}
    (h : advance? n parts = some (part :: rest)) : part ≠ [] := by
  induction parts generalizing n with
  | nil => cases n <;> simp [advance?] at h
  | cons first tail ih =>
    rw [advance?] at h
    split at h
    next => exact ih h
    next hlt =>
      simp only [Option.some.injEq, List.cons.injEq] at h
      intro hp
      have := congrArg List.length (h.1.trans hp)
      simp at this
      omega

theorem flatten_dropEmpty (parts : Parts) : parts.dropEmpty.flatten = parts.flatten := by
  simpa using flatten_advance? (advance?_zero parts)

theorem size_dropEmpty (parts : Parts) : parts.dropEmpty.size = parts.size := by
  rw [size, flatten_dropEmpty, size]

end Parts

end Outlet
