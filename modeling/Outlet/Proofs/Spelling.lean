import Mathlib.Algebra.Group.Nat.Defs
import Mathlib.Data.List.Induction
import Mathlib.Data.Nat.Log
import Outlet.Decimal.Lemmas

/-!
# Numerals as they are written

A numeral is written as a sign, if it has one, and digits, of which there is at least one; what it
denotes is read off its digits by their places. Among all the ways to write an integer one is
canonical: it has no plus sign, no superfluous zero in front and no sign before zero. Main
statements: the canonical way is the decimal text of the integer (`text_ofInt`, `canonical_ofInt`),
and it is the only one (`Canonical.eq_ofInt`).
-/

namespace Outlet.Decimal.Numeral

open List

/-! ## Digits -/

/-- A byte that stands for a decimal digit. -/
def IsDigit (byte : UInt8) : Prop := 48 ≤ byte.toNat ∧ byte.toNat ≤ 57

instance (byte : UInt8) : Decidable (IsDigit byte) := inferInstanceAs (Decidable (_ ∧ _))

/-- The number that a row of digits denotes, each digit worth ten times the one behind it. -/
def magnitude : Bytes → Nat
  | [] => 0
  | byte :: rest => (byte.toNat - 48) * 10 ^ rest.length + magnitude rest

/-- The row does not begin with a superfluous zero. -/
def Shortest (row : Bytes) : Prop := row.head? = some 48 → row = [48]

theorem digit?_eq_some_iff {byte : UInt8} {digit : Nat} :
    digit? byte = some digit ↔ IsDigit byte ∧ digit = byte.toNat - 48 := by
  rw [digit?, IsDigit]
  split
  next h => simp [h, eq_comm]
  next h => simp [h]

theorem digit?_eq_none_iff {byte : UInt8} : digit? byte = none ↔ ¬ IsDigit byte := by
  rw [digit?, IsDigit]
  split
  next h => simp [h]
  next h => simp [h]

theorem magnitude_append (front back : Bytes) :
    magnitude (front ++ back) = magnitude front * 10 ^ back.length + magnitude back := by
  induction front with
  | nil => simp [magnitude]
  | cons byte rest ih =>
    rw [cons_append, magnitude, magnitude, ih, length_append, Nat.pow_add, Nat.add_mul,
      Nat.mul_assoc, Nat.add_assoc]

theorem magnitude_append_singleton (front : Bytes) (byte : UInt8) :
    magnitude (front ++ [byte]) = magnitude front * 10 + (byte.toNat - 48) := by
  simp [magnitude_append, magnitude]

/-- Further digits make a number no smaller. -/
theorem magnitude_le_append (front back : Bytes) : magnitude front ≤ magnitude (front ++ back) := by
  have hpos : 1 ≤ 10 ^ back.length := Nat.one_le_pow _ _ (by decide)
  have hmul := Nat.mul_le_mul_left (magnitude front) hpos
  rw [magnitude_append]
  omega

/-! ## The digits of a number -/

theorem toNat_lastDigit (n : Nat) : (lastDigit n).toNat = 48 + n % 10 := by
  rw [lastDigit, UInt8.toNat_ofNat']
  omega

theorem lastDigit_eq {n : Nat} {byte : UInt8} (hd : IsDigit byte)
    (hn : n % 10 = byte.toNat - 48) : lastDigit n = byte := by
  apply UInt8.toNat_inj.mp
  rw [toNat_lastDigit, hn]
  exact Nat.add_sub_cancel' hd.1

theorem isDigit_of_mem_digits {n : Nat} {byte : UInt8} (h : byte ∈ digits n) : IsDigit byte := by
  obtain ⟨digit, hd⟩ := Option.isSome_iff_exists.mp (isSome_digit?_of_mem h)
  exact (digit?_eq_some_iff.mp hd).1

theorem digits_of_lt {n : Nat} (h : n < 10) : digits n = [lastDigit n] := by
  rw [digits, if_pos h]

theorem digits_of_le {n : Nat} (h : 10 ≤ n) : digits n = digits (n / 10) ++ [lastDigit n] := by
  rw [digits, if_neg (Nat.not_lt.mpr h)]

theorem digits_zero : digits 0 = [48] := digits_of_lt (by decide)

theorem magnitude_digits (n : Nat) : magnitude (digits n) = n := by
  induction n using Nat.strongRecOn with
  | ind n ih =>
    have hlast := toNat_lastDigit n
    by_cases hten : n < 10
    · rw [digits_of_lt hten]
      simp only [magnitude, length_nil, Nat.pow_zero]
      omega
    · rw [digits_of_le (Nat.not_lt.mp hten), magnitude_append_singleton, ih (n / 10) (by omega)]
      omega

theorem length_digits (n : Nat) : (digits n).length = Nat.log 10 n + 1 := by
  induction n using Nat.strongRecOn with
  | ind n ih =>
    by_cases hten : n < 10
    · rw [digits_of_lt hten, Nat.log_of_lt hten, length_singleton]
    · have hle : 10 ≤ n := Nat.not_lt.mp hten
      rw [digits_of_le hle, length_append, ih (n / 10) (by omega), length_singleton,
        Nat.log_of_one_lt_of_le (by decide) hle]

/-- What stands before the last digit of a row does not begin with a superfluous zero either. -/
theorem Shortest.head?_ne {front : Bytes} {byte : UInt8} (h : Shortest (front ++ [byte]))
    (hf : front ≠ []) : front.head? ≠ some 48 := by
  intro hhead
  obtain ⟨first, rest, rfl⟩ := exists_cons_of_ne_nil hf
  have hone := congrArg length (h hhead)
  simp at hone

/-- A row without a superfluous zero consists of the digits of the number that it denotes. -/
theorem digits_magnitude {row : Bytes} (hne : row ≠ []) (hd : ∀ byte ∈ row, IsDigit byte)
    (hs : Shortest row) : digits (magnitude row) = row := by
  induction row using List.reverseRecOn with
  | nil => exact absurd rfl hne
  | append_singleton front byte ih =>
    have hbyte : IsDigit byte := hd byte (by simp)
    have hlast : lastDigit (magnitude (front ++ [byte])) = byte := by
      apply lastDigit_eq hbyte
      rw [magnitude_append_singleton]
      have := hbyte.2
      omega
    have hten : byte.toNat - 48 < 10 := by
      have := hbyte.2
      omega
    by_cases hf : front = []
    · subst hf
      rw [digits_of_lt (by simpa [magnitude] using hten), hlast]
      rfl
    · have hhead := hs.head?_ne hf
      have hfront : digits (magnitude front) = front :=
        ih hf (fun b hb => hd b (mem_append_left _ hb)) fun h => absurd h hhead
      -- The number before the last digit is not zero, as the row would begin with a zero.
      have hpos : 0 < magnitude front := by
        apply Nat.pos_of_ne_zero
        intro hzero
        rw [hzero, digits_zero] at hfront
        rw [← hfront] at hhead
        exact hhead rfl
      have hm := magnitude_append_singleton front byte
      have hdiv : magnitude (front ++ [byte]) / 10 = magnitude front := by omega
      rw [digits_of_le (by omega), hdiv, hfront, hlast]

theorem shortest_digits (n : Nat) : Shortest (digits n) := by
  induction n using Nat.strongRecOn with
  | ind n ih =>
    intro hhead
    by_cases hten : n < 10
    · rw [digits_of_lt hten] at hhead ⊢
      rw [head?_cons, Option.some.injEq] at hhead
      rw [hhead]
    · rw [digits_of_le (Nat.not_lt.mp hten)] at hhead
      obtain ⟨first, rest, hfront⟩ := exists_cons_of_ne_nil (digits_ne_nil (n / 10))
      have hzero : magnitude (digits (n / 10)) = magnitude [48] := by
        apply congrArg
        apply ih (n / 10) (by omega)
        rw [hfront] at hhead ⊢
        exact hhead
      rw [magnitude_digits] at hzero
      have : magnitude [48] = 0 := rfl
      omega

/-! ## Signs -/

namespace Sign

def byte : Sign → UInt8
  | plus => 43
  | minus => Decimal.minus

/-- The number with this sign and a magnitude. -/
def apply : Sign → Nat → Int
  | plus, n => n
  | minus, n => -n

theorem not_isDigit_byte (sign : Sign) : ¬ IsDigit sign.byte := by
  cases sign <;> decide

theorem byte_injective {sign sign' : Sign} (h : sign.byte = sign'.byte) : sign = sign' := by
  cases sign <;> cases sign' <;> first | rfl | exact absurd h (by decide)

theorem extend_apply (sign : Sign) (n digit : Nat) :
    sign.extend (sign.apply n) digit = sign.apply (n * 10 + digit) := by
  cases sign <;> simp only [extend, apply] <;> omega

end Sign

/-! ## Spellings -/

/-- A way to write a numeral. -/
@[ext]
structure Spelling where
  sign : Option Sign
  digits : Bytes
  digits_ne_nil : digits ≠ []
  isDigit_of_mem : ∀ byte ∈ digits, IsDigit byte

namespace Spelling

def text (spelling : Spelling) : Bytes :=
  (spelling.sign.map Sign.byte).toList ++ spelling.digits

/-- The integer that is written; without a sign it is not negative. -/
def value (spelling : Spelling) : Int :=
  (spelling.sign.getD .plus).apply (magnitude spelling.digits)

/-- No plus sign, no superfluous zero in front, and no sign before zero. -/
structure Canonical (spelling : Spelling) : Prop where
  sign : spelling.sign ≠ some .plus
  shortest : Shortest spelling.digits
  zero : spelling.digits = [48] → spelling.sign = none

/-- The sign and the digits can be told from the text. -/
theorem text_injective {spelling spelling' : Spelling} (h : spelling.text = spelling'.text) :
    spelling = spelling' := by
  obtain ⟨sign, row, hne, hd⟩ := spelling
  obtain ⟨sign', row', hne', hd'⟩ := spelling'
  cases sign with
  | none =>
    cases sign' with
    | none => exact Spelling.ext rfl h
    | some sign' =>
      have hmem : sign'.byte ∈ row := by
        change row = sign'.byte :: row' at h
        simp [h]
      exact absurd (hd _ hmem) sign'.not_isDigit_byte
  | some sign =>
    cases sign' with
    | none =>
      have hmem : sign.byte ∈ row' := by
        change sign.byte :: row = row' at h
        simp [← h]
      exact absurd (hd' _ hmem) sign.not_isDigit_byte
    | some sign' =>
      obtain ⟨hs, hr⟩ := cons_eq_cons.mp h
      exact Spelling.ext (congrArg some (Sign.byte_injective hs)) hr

/-- Signs and digits are single-byte characters. -/
theorem toNat_lt_of_mem_text {spelling : Spelling} {byte : UInt8} (h : byte ∈ spelling.text) :
    byte.toNat < 0x80 := by
  rw [text] at h
  rcases mem_append.mp h with h | h
  · obtain ⟨sign, -, rfl⟩ := Option.map_eq_some_iff.mp (Option.mem_toList.mp h)
    cases sign <;> decide
  · have := (spelling.isDigit_of_mem byte h).2
    omega

/-- The decimal text of an integer. -/
def ofInt (n : Int) : Spelling :=
  ⟨if n < 0 then some .minus else none, Decimal.digits n.natAbs, Decimal.digits_ne_nil _,
    fun _ => isDigit_of_mem_digits⟩

theorem text_ofInt (n : Int) : (ofInt n).text = signed n := by
  rw [text, ofInt, signed]
  split <;> rfl

theorem value_ofInt (n : Int) : (ofInt n).value = n := by
  rw [value, ofInt, magnitude_digits]
  split <;> simp only [Option.getD_some, Option.getD_none, Sign.apply] <;> omega

theorem canonical_ofInt (n : Int) : (ofInt n).Canonical where
  sign := by
    rw [ofInt]
    split <;> simp
  shortest := shortest_digits n.natAbs
  zero := by
    intro h
    have hzero := congrArg magnitude h
    change magnitude (Decimal.digits n.natAbs) = 0 at hzero
    rw [magnitude_digits] at hzero
    rw [ofInt, if_neg (by omega)]

theorem natAbs_value (spelling : Spelling) :
    spelling.value.natAbs = magnitude spelling.digits := by
  rw [value]
  cases spelling.sign.getD .plus <;> simp only [Sign.apply] <;> omega

theorem Canonical.digits_eq {spelling : Spelling} (h : spelling.Canonical) :
    Decimal.digits (magnitude spelling.digits) = spelling.digits :=
  digits_magnitude spelling.digits_ne_nil spelling.isDigit_of_mem h.shortest

theorem Canonical.sign_eq {spelling : Spelling} (h : spelling.Canonical) :
    spelling.sign = if spelling.value < 0 then some .minus else none := by
  rw [value]
  cases hs : spelling.sign with
  | none =>
    rw [if_neg]
    simp only [Option.getD_none, Sign.apply]
    omega
  | some sign =>
    cases sign with
    | plus => exact absurd hs h.sign
    | minus =>
      have hpos : magnitude spelling.digits ≠ 0 := by
        intro hzero
        have hdigits := h.digits_eq
        rw [hzero, digits_zero] at hdigits
        have hnone := h.zero hdigits.symm
        rw [hs] at hnone
        cases hnone
      rw [if_pos]
      simp only [Option.getD_some, Sign.apply]
      omega

/-- There is one canonical way to write an integer. -/
theorem Canonical.eq_ofInt {spelling : Spelling} (h : spelling.Canonical) :
    spelling = ofInt spelling.value := by
  refine Spelling.ext h.sign_eq ?_
  change spelling.digits = Decimal.digits spelling.value.natAbs
  rw [natAbs_value, h.digits_eq]

end Spelling

end Outlet.Decimal.Numeral
