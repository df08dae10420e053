import Outlet.Bytes

/-!
# Decimal text in a field of fixed width

An integer is written right-aligned into a field of twenty bytes: its digits from the last to the
first, then the sign. `place?` stops short when it would step out of the field on the left;
`exists_place?` says that no 64-bit integer makes it do so, which is what `place` rests on.
-/

namespace Outlet.Decimal

/-- The length of the longest decimal text of a 64-bit integer. -/
def width : Nat := 20

abbrev Field := Vector UInt8 width

def minus : UInt8 := 45

def lastDigit (n : Nat) : UInt8 := UInt8.ofNat (48 + n % 10)

/-- A field that ends in a text: the bytes from `start` on. -/
structure Placed where
  field : Field
  start : Nat
  start_le : start ≤ width

namespace Placed

def text (placed : Placed) : Bytes := placed.field.toList.drop placed.start

/-- Writes one more byte in front of the text, if there is room. -/
def push? (byte : UInt8) : Placed → Option Placed
  | ⟨_, 0, _⟩ => none
  | ⟨field, start + 1, h⟩ => some ⟨field.set start byte h, start, Nat.le_of_succ_le h⟩

end Placed

/-- Writes the digits of `n` so that the last one stands just before `room`. -/
def digits? (field : Field) : (room : Nat) → room ≤ width → Nat → Option Placed
  | 0, _, _ => none
  | room + 1, h, n =>
    let field := field.set room (lastDigit n) h
    if n < 10 then some ⟨field, room, Nat.le_of_succ_le h⟩
    else digits? field room (Nat.le_of_succ_le h) (n / 10)

def place? (field : Field) (value : Int64) : Option Placed :=
  let digits := digits? field width (Nat.le_refl width) value.toInt.natAbs
  if value.toInt < 0 then digits.bind (Placed.push? minus) else digits

/-- A number below the `k`-th power of ten takes at most `k` places. -/
theorem exists_digits? (field : Field) {n k room : Nat} (hn : n < Nat.pow 10 k) (hk : 0 < k)
    (hroom : k ≤ room) (h : room ≤ width) :
    ∃ placed, digits? field room h n = some placed ∧ room ≤ placed.start + k := by
  induction k generalizing n room field with
  | zero => omega
  | succ k ih =>
    cases room with
    | zero => omega
    | succ room =>
      rw [digits?]
      split
      next => exact ⟨_, rfl, by dsimp only; omega⟩
      next hten =>
        change n < Nat.pow 10 k * 10 at hn
        have hk : 0 < k := by
          rcases Nat.eq_zero_or_pos k with rfl | hk
          · change n < 1 * 10 at hn
            omega
          · exact hk
        have hdiv : n / 10 < Nat.pow 10 k := by omega
        obtain ⟨placed, hp, hs⟩ := ih (field.set room (lastDigit n) h) hdiv hk
          (Nat.le_of_succ_le_succ hroom) (Nat.le_of_succ_le h)
        exact ⟨placed, hp, by omega⟩

/-- No 64-bit integer runs out of the field. -/
theorem exists_place? (field : Field) (value : Int64) :
    ∃ placed, place? field value = some placed := by
  have hlo := value.le_toInt
  have hhi := value.toInt_lt
  have hn : value.toInt.natAbs < 10000000000000000000 := by omega
  obtain ⟨placed, hp, hs⟩ :=
    exists_digits? field hn (by decide) (by decide : 19 ≤ width) (Nat.le_refl width)
  rw [place?]
  split
  next =>
    obtain ⟨digits, start, hle⟩ := placed
    rw [hp]
    cases start with
    | zero => simp [width] at hs
    | succ start => exact ⟨_, rfl⟩
  next => exact ⟨placed, hp⟩

/-- Writes a 64-bit integer at the end of a field; what stands left of its text is kept. -/
def place (field : Field) (value : Int64) : Placed :=
  (place? field value).get (Option.isSome_iff_exists.2 (exists_place? field value))

theorem place?_eq_some_place (field : Field) (value : Int64) :
    place? field value = some (place field value) := by
  rw [place, Option.some_get]

def text (value : Int64) : Bytes := (place (Vector.replicate width 0) value).text

end Outlet.Decimal
