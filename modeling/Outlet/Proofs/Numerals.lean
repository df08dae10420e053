import Mathlib.Order.Bounds.Basic
import Outlet.Proofs.Spelling

/-!
# What is read as a numeral, and where reading stops

Digits are read from left to right as long as the number that they denote is in range. Since further
digits never bring a number back into range, a row of digits is read exactly if all of it is in
range, and otherwise the first byte that is no digit, or that leaves the range, decides alone.
Main statements: what is read is a numeral that is written in some way and in range
(`read_eq_ok_iff`), and what is refused is refused at the first place of a fault
(`read_eq_error_iff`), whatever stands behind it (`read_of_fault`).
-/

namespace Outlet.Decimal.Numeral

open List

/-! ## Rows of digits -/

def Bounds.Holds (bounds : Bounds) (value : Int) : Prop :=
  bounds.least ≤ value ∧ value ≤ bounds.greatest

instance (bounds : Bounds) (value : Int) : Decidable (bounds.Holds value) :=
  inferInstanceAs (Decidable (_ ∧ _))

/-- The bytes are digits, and the number that they denote with a sign is in range. -/
structure Fits (bounds : Bounds) (sign : Sign) (row : Bytes) : Prop where
  isDigit_of_mem : ∀ byte ∈ row, IsDigit byte
  holds : bounds.Holds (sign.apply (magnitude row))

/-- The byte at an index is no digit, or the number that ends with it is out of range. -/
def FaultAt (bounds : Bounds) (sign : Sign) (row : Bytes) (index : Nat) : Prop :=
  ∃ byte, row[index]? = some byte ∧
    (¬ IsDigit byte ∨ ¬ bounds.Holds (sign.apply (magnitude (row.take (index + 1)))))

/-- The cause that is reported of a byte at fault. -/
def Sign.cause (sign : Sign) (byte : UInt8) : Error :=
  if IsDigit byte then sign.overflow else .invalidDigit

section

variable {bounds : Bounds} {sign : Sign} {front back row : Bytes} {byte : UInt8}

/-- A number between zero and one in range is in range. -/
theorem Bounds.Holds.of_le {n m : Nat} (h : bounds.Holds (sign.apply n)) (hzero : bounds.Holds 0)
    (hle : m ≤ n) : bounds.Holds (sign.apply m) := by
  obtain ⟨hlo, hhi⟩ := h
  obtain ⟨hlo', hhi'⟩ := hzero
  cases sign <;> simp only [Sign.apply, Bounds.Holds] at hlo hhi ⊢ <;> omega

theorem Fits.nil (hzero : bounds.Holds 0) : Fits bounds sign [] := by
  refine ⟨forall_mem_nil _, ?_⟩
  cases sign <;> simpa [magnitude, Sign.apply] using hzero

theorem Fits.of_append (h : Fits bounds sign (front ++ back)) (hzero : bounds.Holds 0) :
    Fits bounds sign front :=
  ⟨fun byte hm => h.isDigit_of_mem byte (mem_append_left back hm),
    h.holds.of_le hzero (magnitude_le_append front back)⟩

theorem Fits.snoc (h : Fits bounds sign front) (hd : IsDigit byte)
    (hh : bounds.Holds (sign.apply (magnitude (front ++ [byte])))) :
    Fits bounds sign (front ++ [byte]) := by
  refine ⟨?_, hh⟩
  intro b hb
  rcases mem_append.mp hb with hb | hb
  · exact h.isDigit_of_mem b hb
  · rwa [mem_singleton.mp hb]

/-! ## One digit -/

theorem readDigits_cons_of_holds (hd : IsDigit byte)
    (hh : bounds.Holds (sign.apply (magnitude (front ++ [byte])))) :
    readDigits bounds sign (sign.apply (magnitude front)) (byte :: back) =
      readDigits bounds sign (sign.apply (magnitude (front ++ [byte]))) back := by
  rw [magnitude_append_singleton] at hh ⊢
  rw [readDigits, digit?_eq_some_iff.mpr ⟨hd, rfl⟩]
  simp only [Sign.extend_apply]
  exact if_pos hh

/-- A byte at fault is the cause, whatever follows it. -/
theorem readDigits_cons_of_fault
    (hf : ¬ IsDigit byte ∨ ¬ bounds.Holds (sign.apply (magnitude (front ++ [byte])))) :
    readDigits bounds sign (sign.apply (magnitude front)) (byte :: back) =
      .error (sign.cause byte) := by
  rw [Sign.cause, readDigits]
  by_cases hd : IsDigit byte
  · have hout := hf.resolve_left (not_not_intro hd)
    rw [magnitude_append_singleton] at hout
    rw [digit?_eq_some_iff.mpr ⟨hd, rfl⟩, if_pos hd]
    simp only [Sign.extend_apply]
    exact if_neg hout
  · rw [digit?_eq_none_iff.mpr hd, if_neg hd]

/-! ## All digits -/

theorem readDigits_of_fits (hzero : bounds.Holds 0) (h : Fits bounds sign row) :
    readDigits bounds sign 0 row = .ok (sign.apply (magnitude row)) := by
  induction row using List.reverseRecOn with
  | nil => cases sign <;> rfl
  | append_singleton front byte ih =>
    rw [readDigits_append (ih (h.of_append hzero)),
      readDigits_cons_of_holds (h.isDigit_of_mem byte (by simp)) h.holds]
    rfl

/-- The front is in range and all digits, and the byte behind it is at fault. -/
structure BreaksOff (bounds : Bounds) (sign : Sign) (front : Bytes) (byte : UInt8) : Prop where
  fits : Fits bounds sign front
  fault : ¬ IsDigit byte ∨ ¬ bounds.Holds (sign.apply (magnitude (front ++ [byte])))

theorem readDigits_of_breaksOff (hzero : bounds.Holds 0) (h : BreaksOff bounds sign front byte)
    (back : Bytes) :
    readDigits bounds sign 0 (front ++ byte :: back) = .error (sign.cause byte) := by
  rw [readDigits_append (readDigits_of_fits hzero h.fits)]
  exact readDigits_cons_of_fault h.fault

/-- A row is in range, or it breaks off somewhere. -/
theorem fits_or_breaksOff (hzero : bounds.Holds 0) (sign : Sign) (row : Bytes) :
    Fits bounds sign row ∨
      ∃ front byte back, row = front ++ byte :: back ∧ BreaksOff bounds sign front byte := by
  induction row using List.reverseRecOn with
  | nil => exact .inl (.nil hzero)
  | append_singleton row last ih =>
    rcases ih with hfits | ⟨front, byte, back, rfl, hoff⟩
    · by_cases hf : ¬ IsDigit last ∨ ¬ bounds.Holds (sign.apply (magnitude (row ++ [last])))
      · exact .inr ⟨row, last, [], rfl, hfits, hf⟩
      · obtain ⟨hd, hh⟩ := not_or.mp hf
        exact .inl (hfits.snoc (not_not.mp hd) (not_not.mp hh))
    · exact .inr ⟨front, byte, back ++ [last], by simp, hoff⟩

theorem readDigits_eq_ok_iff (hzero : bounds.Holds 0) {value : Int} :
    readDigits bounds sign 0 row = .ok value ↔
      Fits bounds sign row ∧ value = sign.apply (magnitude row) := by
  constructor
  · intro h
    rcases fits_or_breaksOff hzero sign row with hfits | ⟨front, byte, back, rfl, hoff⟩
    · rw [readDigits_of_fits hzero hfits] at h
      exact ⟨hfits, (Except.ok.inj h).symm⟩
    · rw [readDigits_of_breaksOff hzero hoff] at h
      cases h
  · rintro ⟨hfits, rfl⟩
    exact readDigits_of_fits hzero hfits

/-! ## The first fault -/

theorem not_faultAt_of_fits (hzero : bounds.Holds 0) (h : Fits bounds sign row) (index : Nat) :
    ¬ FaultAt bounds sign row index := by
  rintro ⟨byte, hbyte, hd | hh⟩
  · exact hd (h.isDigit_of_mem byte (mem_of_getElem? hbyte))
  · rw [← take_append_drop (index + 1) row] at h
    exact hh (h.of_append hzero).holds

/-- Whether there is a fault in the front does not depend on what stands behind it. -/
theorem faultAt_of_append {index : Nat} (hlt : index < front.length)
    (h : FaultAt bounds sign (front ++ back) index) : FaultAt bounds sign front index := by
  obtain ⟨byte, hbyte, hfault⟩ := h
  rw [getElem?_append_left hlt] at hbyte
  rw [take_append_of_le_length hlt] at hfault
  exact ⟨byte, hbyte, hfault⟩

/-- A row breaks off where its first fault is. -/
theorem BreaksOff.isLeast (hzero : bounds.Holds 0) (h : BreaksOff bounds sign front byte)
    (back : Bytes) :
    IsLeast {index | FaultAt bounds sign (front ++ byte :: back) index} front.length := by
  constructor
  · refine ⟨byte, by simp, ?_⟩
    have htake : (front ++ byte :: back).take (front.length + 1) = front ++ [byte] := by
      rw [take_length_add_append]
      rfl
    rw [htake]
    exact h.fault
  · intro index hfault
    by_contra hlt
    exact not_faultAt_of_fits hzero h.fits index (faultAt_of_append (Nat.not_le.mp hlt) hfault)

/-- Reading stops at the first fault, and its byte is the cause. -/
theorem readDigits_eq_error_iff (hzero : bounds.Holds 0) {cause : Error} :
    readDigits bounds sign 0 row = .error cause ↔
      ∃ index byte, IsLeast {index | FaultAt bounds sign row index} index ∧
        row[index]? = some byte ∧ cause = sign.cause byte := by
  rcases fits_or_breaksOff hzero sign row with hfits | ⟨front, byte, back, rfl, hoff⟩
  · refine iff_of_false ?_ ?_
    · rw [readDigits_of_fits hzero hfits]
      exact nofun
    · rintro ⟨index, -, hleast, -⟩
      exact not_faultAt_of_fits hzero hfits index hleast.1
  · have hleast := hoff.isLeast hzero back
    have hbyte : (front ++ byte :: back)[front.length]? = some byte := by simp
    rw [readDigits_of_breaksOff hzero hoff]
    constructor
    · intro h
      exact ⟨front.length, byte, hleast, hbyte, (Except.error.inj h).symm⟩
    · rintro ⟨index, found, hindex, hfound, rfl⟩
      rw [hindex.unique hleast, hbyte] at hfound
      rw [Option.some.inj hfound]

/-- What stands behind the first fault does not matter. -/
theorem readDigits_of_isLeast (hzero : bounds.Holds 0) {index : Nat}
    (hleast : IsLeast {index | FaultAt bounds sign row index} index)
    (hbyte : row[index]? = some byte) (tail : Bytes) :
    readDigits bounds sign 0 (row.take (index + 1) ++ tail) = .error (sign.cause byte) := by
  rcases fits_or_breaksOff hzero sign row with hfits | ⟨front, last, back, rfl, hoff⟩
  · exact absurd hleast.1 (not_faultAt_of_fits hzero hfits index)
  · obtain rfl := hleast.unique (hoff.isLeast hzero back)
    rw [getElem?_append_right (Nat.le_refl _), Nat.sub_self, getElem?_cons_zero] at hbyte
    obtain rfl := Option.some.inj hbyte
    rw [take_length_add_append, append_assoc]
    exact readDigits_of_breaksOff hzero hoff tail

end

/-! ## With a sign or without -/

/-- Why a text is not read as a numeral: there is nothing, or nothing behind the sign, or behind the
sign, if there is one, a first byte is at fault. -/
inductive Refused (bounds : Bounds) : Bytes → Error → Prop where
  | empty : Refused bounds [] .empty
  | bare (sign : Sign) : Refused bounds [sign.byte] .invalidDigit
  | fault {sign : Option Sign} {row : Bytes} {index : Nat} {byte : UInt8}
      (unsigned : sign = none → ∀ other : Sign, row.head? ≠ some other.byte)
      (first : IsLeast {index | FaultAt bounds (sign.getD .plus) row index} index)
      (at_first : row[index]? = some byte) :
      Refused bounds ((sign.map Sign.byte).toList ++ row) ((sign.getD .plus).cause byte)

theorem Spelling.head?_digits_ne (spelling : Spelling) (sign : Sign) :
    spelling.digits.head? ≠ some sign.byte := by
  intro h
  exact sign.not_isDigit_byte (spelling.isDigit_of_mem _ (mem_of_head? h))

/-- A text is empty or a bare sign, or there is a row behind the sign, if there is one. -/
theorem text_cases (text : Bytes) :
    text = [] ∨ (∃ sign : Sign, text = [sign.byte]) ∨
      ∃ (sign : Option Sign) (row : Bytes), text = (sign.map Sign.byte).toList ++ row ∧ row ≠ [] ∧
        (sign = none → ∀ other : Sign, row.head? ≠ some other.byte) := by
  cases text with
  | nil => exact .inl rfl
  | cons byte rest =>
    by_cases h : ∃ sign : Sign, byte = sign.byte
    · obtain ⟨sign, rfl⟩ := h
      by_cases hrest : rest = []
      · exact .inr (.inl ⟨sign, by rw [hrest]⟩)
      · exact .inr (.inr ⟨some sign, rest, rfl, hrest, nofun⟩)
    · refine .inr (.inr ⟨none, byte :: rest, rfl, cons_ne_nil byte rest, ?_⟩)
      intro _ other hother
      exact h ⟨other, Option.some.inj hother⟩

section

variable {bounds : Bounds} {text row : Bytes} {sign : Option Sign}

theorem read_sign {sign : Sign} (hneg : sign = .minus → bounds.least < 0) (row : Bytes) :
    read bounds (sign.byte :: row) = readSigned bounds sign row := by
  cases sign with
  | plus => rfl
  | minus => rw [read, if_neg (by decide), if_pos ⟨rfl, hneg rfl⟩]

theorem read_row (hneg : sign = some .minus → bounds.least < 0) (hrow : row ≠ [])
    (hs : sign = none → ∀ other : Sign, row.head? ≠ some other.byte) :
    read bounds ((sign.map Sign.byte).toList ++ row) =
      readDigits bounds (sign.getD .plus) 0 row := by
  cases sign with
  | some sign =>
    change read bounds (sign.byte :: row) = readDigits bounds sign 0 row
    rw [read_sign fun h => hneg (congrArg some h), readSigned_of_ne_nil hrow]
  | none =>
    obtain ⟨byte, rest, rfl⟩ := exists_cons_of_ne_nil hrow
    have hplus : byte ≠ 43 := fun h => hs rfl .plus (congrArg some h)
    have hminus : byte ≠ 45 := fun h => hs rfl .minus (congrArg some h)
    change read bounds (byte :: rest) = _
    rw [read, if_neg hplus, if_neg fun h => hminus h.1]
    rfl

/-- A numeral is read if it is in range, however it is written. -/
theorem read_spelling {spelling : Spelling} (hneg : spelling.sign = some .minus → bounds.least < 0)
    (hzero : bounds.Holds 0) (h : bounds.Holds spelling.value) :
    read bounds spelling.text = .ok spelling.value := by
  rw [Spelling.text, read_row hneg spelling.digits_ne_nil fun _ => spelling.head?_digits_ne]
  exact readDigits_of_fits hzero ⟨spelling.isDigit_of_mem, h⟩

theorem read_eq_ok_iff (hneg : bounds.least < 0) (hzero : bounds.Holds 0) {value : Int} :
    read bounds text = .ok value ↔
      ∃ spelling : Spelling, text = spelling.text ∧ spelling.value = value ∧
        bounds.Holds value := by
  constructor
  · intro h
    rcases text_cases text with rfl | ⟨sign, rfl⟩ | ⟨sign, row, rfl, hrow, hs⟩
    · cases h
    · rw [read_sign fun _ => hneg] at h
      cases h
    · rw [read_row (fun _ => hneg) hrow hs, readDigits_eq_ok_iff hzero] at h
      obtain ⟨hfits, rfl⟩ := h
      exact ⟨⟨sign, row, hrow, hfits.isDigit_of_mem⟩, rfl, rfl, hfits.holds⟩
  · rintro ⟨spelling, rfl, rfl, hholds⟩
    exact read_spelling (fun _ => hneg) hzero hholds

theorem read_eq_error_iff (hneg : bounds.least < 0) (hzero : bounds.Holds 0) {cause : Error} :
    read bounds text = .error cause ↔ Refused bounds text cause := by
  constructor
  · intro h
    rcases text_cases text with rfl | ⟨sign, rfl⟩ | ⟨sign, row, rfl, hrow, hs⟩
    · obtain rfl := Except.error.inj h
      exact .empty
    · rw [read_sign fun _ => hneg] at h
      obtain rfl := Except.error.inj h
      exact .bare sign
    · rw [read_row (fun _ => hneg) hrow hs, readDigits_eq_error_iff hzero] at h
      obtain ⟨index, byte, hleast, hbyte, rfl⟩ := h
      exact .fault hs hleast hbyte
  · intro h
    cases h with
    | empty => rfl
    | bare sign => exact read_sign (fun _ => hneg) []
    | @fault sign row index byte hs hleast hbyte =>
      have hrow : row ≠ [] := by
        rintro rfl
        cases hbyte
      rw [read_row (fun _ => hneg) hrow hs]
      exact (readDigits_eq_error_iff hzero).mpr ⟨index, byte, hleast, hbyte, rfl⟩

/-- The first fault decides, whatever stands behind it. -/
theorem read_of_fault (hneg : bounds.least < 0) (hzero : bounds.Holds 0) {index : Nat}
    {byte : UInt8} (hs : sign = none → ∀ other : Sign, row.head? ≠ some other.byte)
    (hleast : IsLeast {index | FaultAt bounds (sign.getD .plus) row index} index)
    (hbyte : row[index]? = some byte) (tail : Bytes) :
    read bounds ((sign.map Sign.byte).toList ++ (row.take (index + 1) ++ tail)) =
      .error ((sign.getD .plus).cause byte) := by
  cases row with
  | nil => cases hbyte
  | cons first rest =>
    have hmore : take (index + 1) (first :: rest) ++ tail ≠ [] := cons_ne_nil first _
    rw [read_row (fun _ => hneg) hmore hs]
    exact readDigits_of_isLeast hzero hleast hbyte tail

end

end Outlet.Decimal.Numeral
