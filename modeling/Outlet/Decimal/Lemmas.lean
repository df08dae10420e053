import Outlet.Decimal.Field
import Outlet.Decimal.Numeral

/-!
# Decimal text and the integers it denotes

`digits` and `signed` say what the decimal text of an integer is without a field. Main statements:
whatever the field held, `place` ends it with exactly that text and leaves the rest of it as it was
(`text_place`, `take_place`), and reading the text gives the integer back (`read_text`).
-/

namespace Outlet.Decimal

/-- The digits of a number, the last of them last. -/
def digits (n : Nat) : Bytes :=
  if n < 10 then [lastDigit n] else digits (n / 10) ++ [lastDigit n]

/-- The digits of an integer behind its sign, if it has one. -/
def signed (value : Int) : Bytes :=
  if value < 0 then minus :: digits value.natAbs else digits value.natAbs

theorem digits_ne_nil (n : Nat) : digits n ≠ [] := by
  rw [digits]
  split <;> simp

/-! ## The field -/

private theorem toList_set (field : Field) {i : Nat} (h : i < width) (byte : UInt8) :
    (field.set i byte h).toList = field.toList.take i ++ byte :: field.toList.drop (i + 1) := by
  rw [Vector.toList_set, List.set_eq_take_append_cons_drop, if_pos (by simpa using h)]

/-- The digits come to stand between what they leave on the left and what was on the right. -/
theorem toList_digits? {field : Field} {room n : Nat} {h : room ≤ width} {placed : Placed}
    (hp : digits? field room h n = some placed) :
    placed.start + (digits n).length = room ∧
      placed.field.toList =
        field.toList.take placed.start ++ digits n ++ field.toList.drop room := by
  induction room generalizing field n with
  | zero => simp [digits?] at hp
  | succ room ih =>
    have hlen : field.toList.length = width := by simp
    have htake : (field.toList.take room).length = room := by
      rw [List.length_take]
      omega
    rw [digits?] at hp
    split at hp
    next hten =>
      obtain rfl := Option.some.inj hp
      rw [digits, if_pos hten]
      exact ⟨rfl, by simp [toList_set field h]⟩
    next hten =>
      obtain ⟨hs, hl⟩ := ih hp
      have hstart : placed.start ≤ room := by omega
      rw [digits, if_neg hten]
      refine ⟨by rw [List.length_append, List.length_singleton]; omega, ?_⟩
      rw [hl, toList_set field h, List.take_append_of_le_length (by rw [htake]; exact hstart),
        List.take_take, Nat.min_eq_left hstart, List.drop_append_of_le_length (by omega),
        List.drop_of_length_le (by omega)]
      simp

/-- Placing an integer ends the field with its text and keeps all bytes left of it. -/
theorem toList_place (field : Field) (value : Int64) :
    (place field value).start + (signed value.toInt).length = width ∧
      (place field value).field.toList =
        field.toList.take (place field value).start ++ signed value.toInt := by
  have hp := place?_eq_some_place field value
  generalize place field value = placed at hp
  have hlen : field.toList.length = width := by simp
  rw [place?] at hp
  rw [signed]
  split at hp
  next hneg =>
    rw [if_pos hneg]
    obtain ⟨unsigned, hd, hpush⟩ := Option.bind_eq_some_iff.1 hp
    obtain ⟨hs, hl⟩ := toList_digits? hd
    obtain ⟨stage, start, hle⟩ := unsigned
    cases start with
    | zero => simp [Placed.push?] at hpush
    | succ start =>
      obtain rfl := Option.some.inj hpush
      dsimp only at hs hl ⊢
      refine ⟨by rw [List.length_cons]; omega, ?_⟩
      rw [toList_set, hl, List.drop_of_length_le (by omega), List.append_nil,
        List.take_append_of_le_length (by rw [List.length_take]; omega), List.take_take,
        Nat.min_eq_left (by omega), List.drop_append_of_le_length (by rw [List.length_take]; omega),
        List.drop_of_length_le (by rw [List.length_take]; omega), List.nil_append]
  next hneg =>
    rw [if_neg hneg]
    obtain ⟨hs, hl⟩ := toList_digits? hp
    exact ⟨hs, by rw [hl, List.drop_of_length_le (by omega), List.append_nil]⟩

theorem text_place (field : Field) (value : Int64) :
    (place field value).text = signed value.toInt := by
  obtain ⟨hs, hl⟩ := toList_place field value
  have hlen : field.toList.length = width := by simp
  rw [Placed.text, hl, List.drop_append_of_le_length (by rw [List.length_take]; omega),
    List.drop_of_length_le (by rw [List.length_take]; omega), List.nil_append]

theorem take_place (field : Field) (value : Int64) :
    (place field value).field.toList.take (place field value).start =
      field.toList.take (place field value).start := by
  obtain ⟨hs, hl⟩ := toList_place field value
  have hlen : field.toList.length = width := by simp
  rw [hl, List.take_append_of_le_length (by rw [List.length_take]; omega), List.take_take,
    Nat.min_self]

theorem text_eq_signed (value : Int64) : text value = signed value.toInt :=
  text_place _ value

/-! ## Reading -/

namespace Numeral

theorem digit?_lastDigit (n : Nat) : digit? (lastDigit n) = some (n % 10) := by
  have h : (lastDigit n).toNat = 48 + n % 10 := by
    rw [lastDigit, UInt8.toNat_ofNat']
    omega
  rw [digit?, h, if_pos (by omega)]
  simp

theorem isSome_digit?_of_mem {n : Nat} {byte : UInt8} (h : byte ∈ digits n) :
    (digit? byte).isSome := by
  induction n using Nat.strongRecOn with
  | ind n ih =>
    rw [digits] at h
    split at h
    next =>
      obtain rfl := List.mem_singleton.1 h
      simp [digit?_lastDigit]
    next =>
      rcases List.mem_append.1 h with h | h
      · exact ih (n / 10) (by omega) h
      · obtain rfl := List.mem_singleton.1 h
        simp [digit?_lastDigit]

theorem readSigned_of_ne_nil {bounds : Bounds} {sign : Sign} {text : Bytes} (h : text ≠ []) :
    readSigned bounds sign text = readDigits bounds sign 0 text := by
  cases text with
  | nil => exact absurd rfl h
  | cons byte rest => rfl

theorem readDigits_append {bounds : Bounds} {sign : Sign} {start value : Int} {front : Bytes}
    (h : readDigits bounds sign start front = .ok value) (back : Bytes) :
    readDigits bounds sign start (front ++ back) = readDigits bounds sign value back := by
  induction front generalizing start with
  | nil => simp_all [readDigits]
  | cons byte rest ih =>
    rw [List.cons_append, readDigits]
    rw [readDigits] at h
    split at h
    next => simp at h
    next digit hd =>
      dsimp only at h ⊢
      split at h
      next hb =>
        rw [if_pos hb]
        exact ih h
      next => simp at h

/-- The digits of a number are read as that number, with the sign before them. -/
theorem readDigits_digits {bounds : Bounds} (sign : Sign) {n : Nat}
    (h : ∀ m ≤ n, bounds.least ≤ sign.extend 0 m ∧ sign.extend 0 m ≤ bounds.greatest) :
    readDigits bounds sign 0 (digits n) = .ok (sign.extend 0 n) := by
  induction n using Nat.strongRecOn with
  | ind n ih =>
    rw [digits]
    split
    next hten =>
      have hmod : n % 10 = n := Nat.mod_eq_of_lt hten
      simp only [readDigits, digit?_lastDigit, hmod]
      rw [if_pos (h n (Nat.le_refl n))]
    next hten =>
      rw [readDigits_append (ih (n / 10) (by omega) fun m hm => h m (by omega))]
      have he : sign.extend (sign.extend 0 (n / 10)) (n % 10) = sign.extend 0 n := by
        cases sign <;> simp only [Sign.extend] <;> omega
      simp only [readDigits, digit?_lastDigit, he]
      rw [if_pos (h n (Nat.le_refl n))]

/-- The decimal text of a 64-bit integer is read as that integer. -/
theorem read_text (value : Int64) : read .signed64 (text value) = .ok value.toInt := by
  rw [text_eq_signed]
  have hlo := value.le_toInt
  have hhi := value.toInt_lt
  rw [signed]
  split
  next hneg =>
    rw [read, if_neg (by decide), if_pos ⟨rfl, by decide⟩]
    rw [readSigned_of_ne_nil (digits_ne_nil _), readDigits_digits .minus fun m hm => by
      simp only [Bounds.signed64, Sign.extend]; omega]
    simp only [Sign.extend]
    congr 1
    omega
  next hneg =>
    obtain ⟨byte, rest, hd⟩ := List.exists_cons_of_ne_nil (digits_ne_nil value.toInt.natAbs)
    have hbyte : (digit? byte).isSome :=
      isSome_digit?_of_mem (n := value.toInt.natAbs) (by simp [hd])
    have hplus : byte ≠ 43 := by
      rintro rfl
      exact absurd hbyte (by decide)
    have hminus : byte ≠ 45 := by
      rintro rfl
      exact absurd hbyte (by decide)
    rw [hd, read, if_neg hplus, if_neg (fun h => hminus h.1), ← hd,
      readDigits_digits .plus fun m hm => by
        simp only [Bounds.signed64, Sign.extend]; omega]
    simp only [Sign.extend]
    congr 1
    omega

end Numeral

end Outlet.Decimal
