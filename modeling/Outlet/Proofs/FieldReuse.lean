import Mathlib.Data.List.Induction
import Outlet.Decimal.Lemmas
import Outlet.Session

/-!
# One field for many integers

A field is used again without being cleared: what an integer leaves on the left of its text, a sign
and digits of longer texts among it, is what stood there before. Main statements: every byte of the
field has been put there by the latest integer whose text covers its index, or has been there from
the beginning (`origin_placeAll`), and a text begins behind all that is left over.
-/

namespace Outlet.Decimal

open List

/-- The index at which the text of an integer begins in a field. -/
def textStart (value : Int64) : Nat := width - (signed value.toInt).length

/-- Places an integer in a field and leaves the field to the next one. -/
def reuse (field : Field) (value : Int64) : Placed × Field :=
  (place field value, (place field value).field)

/-- Places integers in order, all of them in one field. -/
def placeAll (field : Field) (values : List Int64) : List Placed × Field :=
  Session.run reuse field values

/-! ## One integer -/

section

variable (field : Field) {value : Int64} {index : Nat}

theorem start_place (value : Int64) : (place field value).start = textStart value := by
  have hstart := (toList_place field value).1
  rw [textStart]
  omega

theorem getElem?_place_of_lt (h : index < textStart value) :
    (place field value).field[index]? = field[index]? := by
  rw [← start_place field] at h
  rw [← Vector.getElem?_toList, ← getElem?_take_of_lt h, take_place, getElem?_take_of_lt h,
    Vector.getElem?_toList]

theorem getElem?_place_of_le (h : textStart value ≤ index) :
    (place field value).field[index]? = (signed value.toInt)[index - textStart value]? := by
  rw [← start_place field] at h ⊢
  rw [← text_place field value, Placed.text, getElem?_drop, Nat.add_sub_cancel' h,
    Vector.getElem?_toList]

end

/-! ## Many integers -/

/-- Where the byte at an index comes from once integers have been placed in a field: the latest of
them whose text covers the index has put it there, or none of them covers it and the field held the
byte at first. -/
inductive Origin (initial : Field) (values : List Int64) (index : Nat) (byte : UInt8) : Prop where
  | latest {before : List Int64} {value : Int64} {after : List Int64}
      (split : values = before ++ value :: after) (covered : textStart value ≤ index)
      (uncovered : ∀ later ∈ after, index < textStart later)
      (put : (signed value.toInt)[index - textStart value]? = some byte)
  | initial (uncovered : ∀ value ∈ values, index < textStart value)
      (held : initial[index]? = some byte)

section

variable {initial field : Field} {values : List Int64} {value : Int64} {index : Nat} {byte : UInt8}

/-- An integer whose text does not reach an index makes no difference to the byte there. -/
theorem Origin.append_singleton (h : Origin initial values index byte)
    (hvalue : index < textStart value) : Origin initial (values ++ [value]) index byte := by
  cases h with
  | @latest before earlier after split covered uncovered put =>
    have hsplit : values ++ [value] = before ++ earlier :: (after ++ [value]) := by simp [split]
    refine .latest hsplit covered ?_ put
    intro later hlater
    rcases mem_append.mp hlater with hlater | hlater
    · exact uncovered later hlater
    · rwa [mem_singleton.mp hlater]
  | initial uncovered held =>
    refine .initial ?_ held
    intro other hother
    rcases mem_append.mp hother with hother | hother
    · exact uncovered other hother
    · rwa [mem_singleton.mp hother]

theorem origin_place (h : ∀ byte, field[index]? = some byte → Origin initial values index byte)
    (hbyte : (place field value).field[index]? = some byte) :
    Origin initial (values ++ [value]) index byte := by
  by_cases hvalue : index < textStart value
  · rw [getElem?_place_of_lt field hvalue] at hbyte
    exact (h byte hbyte).append_singleton hvalue
  · have hle := Nat.not_lt.mp hvalue
    rw [getElem?_place_of_le field hle] at hbyte
    exact .latest rfl hle (forall_mem_nil _) hbyte

theorem snd_placeAll_append_singleton (initial : Field) (values : List Int64) (value : Int64) :
    (placeAll initial (values ++ [value])).2 = (place (placeAll initial values).2 value).field := by
  rw [placeAll, Session.run_append]
  rfl

theorem origin_placeAll (hbyte : (placeAll initial values).2[index]? = some byte) :
    Origin initial values index byte := by
  induction values using List.reverseRecOn generalizing byte with
  | nil => exact .initial (forall_mem_nil _) hbyte
  | append_singleton values value ih =>
    rw [snd_placeAll_append_singleton] at hbyte
    exact origin_place (fun _ => ih) hbyte

end

/-- Of the integers that are placed in one field, each has its own text at the end of the field,
whatever stood there before. What is left of that text stays as it was; so after each integer every
byte is the one that the latest text to cover its index has put there, or has been there from the
beginning. -/
theorem placeAll_keeps_latest (initial : Field) (before : List Int64) (value : Int64)
    (after : List Int64) :
    let previous := (placeAll initial before).2
    ∃ placed, (placeAll initial (before ++ value :: after)).1[before.length]? = some placed ∧
      place? previous value = some placed ∧ placed.text = signed value.toInt ∧
      (∀ index byte, placed.field[index]? = some byte →
        Origin initial (before ++ [value]) index byte) ∧
      ∀ index < textStart value, placed.field[index]? = previous[index]? := by
  intro previous
  refine ⟨place previous value, Session.run_getElem? reuse initial before value after,
    place?_eq_some_place previous value, text_place previous value, ?_, ?_⟩
  · intro index byte hbyte
    rw [← snd_placeAll_append_singleton] at hbyte
    exact origin_placeAll hbyte
  · intro index hindex
    exact getElem?_place_of_lt previous hindex

/-- Seven behind a longer text with a sign, in a field of question marks: the sign is left over. -/
theorem placeAll_keeps_latest_behind_a_sign :
    let initial : Field := Vector.replicate width 63
    ∃ placed, (placeAll initial [-123456, 7, 10]).1[1]? = some placed ∧ placed.text = [55] ∧
      13 < textStart 7 ∧ placed.field[13]? = some minus ∧
      (placeAll initial [-123456]).2[13]? = some minus ∧
      Origin initial [-123456, 7] 13 minus ∧ Origin initial [-123456, 7] 19 55 ∧
      Origin initial [-123456, 7] 12 63 := by
  intro initial
  obtain ⟨placed, hp, hplace, htext, horigin, hkept⟩ :=
    placeAll_keeps_latest initial [-123456] 7 [10]
  have hseven : signed (7 : Int64).toInt = [55] := by decide +kernel
  have hstart : 13 < textStart 7 := by
    rw [textStart, hseven]
    decide
  have hbytes : (place? (placeAll initial [-123456]).2 7).map (·.field.toList.drop 12) =
      some [63, 45, 49, 50, 51, 52, 53, 55] := by decide +kernel
  rw [hplace, Option.map_some, Option.some.injEq] at hbytes
  have hbyte (i : Nat) : placed.field[12 + i]? = [63, 45, 49, 50, 51, 52, 53, 55][i]? := by
    rw [← Vector.getElem?_toList, ← getElem?_drop, hbytes]
  have hsign : placed.field[13]? = some minus := hbyte 1
  refine ⟨placed, hp, htext.trans hseven, hstart, hsign, ?_, horigin 13 minus hsign,
    horigin 19 55 (hbyte 7), horigin 12 63 (hbyte 0)⟩
  rw [← hkept 13 hstart, hsign]

end Outlet.Decimal
