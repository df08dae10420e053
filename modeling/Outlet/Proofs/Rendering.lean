import Outlet.Message
import Outlet.Proofs.Slicing
import Outlet.Proofs.Spelling

/-!
# The decimal text of an integer

Whatever a field holds, an integer that is placed in it ends it with the one canonical way to write
that integer, and there is always room for it. A sink that takes something of whatever it is offered
receives the whole text, and the call answers with its length.
-/

namespace Outlet

open List

/-! ## Sinks that take everything -/

section

variable {σ : Type} [Sink σ]

/-- Sinks of some sort that take at least a byte of what they are offered, report what they take,
and can be flushed. -/
structure Willing (kept : σ → Prop) : Prop where
  write : ∀ sink (parts : Parts), kept sink → parts.flatten ≠ [] →
    ∃ count, (Sink.write sink parts).1 = .accepted count ∧ 0 < count ∧ count ≤ parts.size
  flush : ∀ sink, kept sink → (Sink.flush sink).1 = .done
  keeps : ∀ sink parts, kept sink → kept (Sink.write sink parts).2

namespace Willing

variable {kept : σ → Prop} {sink : σ} {parts : Parts}

theorem flatten_ne_nil (ht : parts.Trimmed) (hp : parts ≠ []) : parts.flatten ≠ [] :=
  length_pos_iff.mp (ht.size_pos hp)

/-- The loop goes on to the end of its parts. -/
theorem writeAll_ending (hw : Willing kept) (hs : kept sink) (ht : parts.Trimmed) :
    (writeAll sink parts).ending = .complete := by
  fun_induction writeAll sink parts with
  | case1 => rfl
  | case2 sink parts hp call next ha =>
    obtain ⟨count, hc, hpos, -⟩ := hw.write sink parts hs (flatten_ne_nil ht hp)
    obtain rfl := WriteAnswer.accepted.inj (ha.symm.trans hc)
    exact absurd hpos (Nat.lt_irrefl 0)
  | case3 sink parts hp call next count ha hr =>
    obtain ⟨count', hc, -, hle⟩ := hw.write sink parts hs (flatten_ne_nil ht hp)
    obtain rfl := WriteAnswer.accepted.inj (ha.symm.trans hc)
    exact absurd ((Parts.advance?_eq_none_iff _ _).mp hr) (Nat.not_lt.mpr hle)
  | case4 sink parts hp call next count ha rest hr ih =>
    exact ih (hw.keeps sink parts hs) (Parts.trimmed_advance? hr)
  | case5 sink parts hp call next error ha | case6 sink parts hp call next error ha
  | case7 sink parts hp call next error ha =>
    obtain ⟨count, hc, -⟩ := hw.write sink parts hs (flatten_ne_nil ht hp)
    cases ha.symm.trans hc

/-- A call answers with the length of its text. -/
theorem outcome_deliver (hw : Willing kept) (hs : kept sink) (message : Message) :
    (deliver sink message).outcome = .returned (.wrote message.text.length) := by
  have hend := hw.writeAll_ending hs (Parts.trimmed_dropEmpty message.parts)
  have hkept := writeAll_keeps kept hw.keeps hs message.parts.dropEmpty
  rw [deliver_of_complete hend, hw.flush _ hkept]
  rfl

end Willing

end

namespace ScriptedSink

/-- Neither a script nor a limit keeps the sink from taking what it is offered, in chunks or not. -/
structure Unhindered (sink : ScriptedSink) : Prop where
  writes : sink.writes = []
  flushes : sink.flushes = []
  chunk : sink.chunk ≠ some 0
  limit : sink.limit = none

theorem Unhindered.settle {sink : ScriptedSink} (h : sink.Unhindered) (offer : Bytes)
    (answer : WriteAnswer) : (sink.settle offer answer).Unhindered := by
  cases answer <;> exact ⟨h.writes, h.flushes, h.chunk, h.limit⟩

theorem willing : Willing Unhindered where
  write := by
    intro sink parts hs hne
    have hshown := length_pos_iff.mpr (sink.flatten_visible_ne_nil hne)
    have hle := (sink.flatten_visible parts).length_le
    have hanswer : (sink.write parts).1 = sink.usualAnswer (sink.visible parts).flatten := by
      rw [fst_write, hs.writes]
      rfl
    refine ⟨_, hanswer.trans (by rw [usualAnswer, room?, hs.limit]; rfl), ?_, ?_⟩
    · cases hc : sink.chunk with
      | none => simpa using hshown
      | some most =>
        have hpos : most ≠ 0 := by
          rintro rfl
          exact hs.chunk hc
        simp only [Option.getD_some]
        omega
    · rw [Parts.size]
      omega
  flush := by
    intro sink hs
    change sink.flush.1 = .done
    rw [ScriptedSink.flush, hs.flushes]
    rfl
  keeps := by
    intro sink parts hs
    have hnext : Unhindered { sink with writes := sink.writes.tail } :=
      ⟨congrArg tail hs.writes, hs.flushes, hs.chunk, hs.limit⟩
    exact hnext.settle _ _

end ScriptedSink

/-! ## The text -/

namespace Decimal

open Numeral

/-- Distinct integers have distinct texts. -/
theorem text_injective {value value' : Int64} (h : text value = text value') : value = value' := by
  have hread := Numeral.read_text value
  rw [h, Numeral.read_text] at hread
  exact (Int64.toInt_inj.mp (Except.ok.inj hread)).symm

theorem minus_mem_text_ofInt_iff (n : Int) : minus ∈ (Spelling.ofInt n).text ↔ n < 0 := by
  have hdigits : minus ∉ digits n.natAbs := fun h => absurd (isDigit_of_mem_digits h) (by decide)
  rw [Spelling.text_ofInt, signed]
  split
  next h => simp [h]
  next h => simp [h, hdigits]

theorem length_text_ofInt (n : Int) :
    (Spelling.ofInt n).text.length =
      Nat.log 10 n.natAbs + 1 + if n < 0 then 1 else 0 := by
  rw [Spelling.text_ofInt, signed]
  split
  · rw [length_cons, length_digits]
  · rw [length_digits]

/-- A text that ends a field is no longer than the field. -/
theorem Placed.length_text_le (placed : Placed) : placed.text.length ≤ width := by
  rw [Placed.text, length_drop, Vector.length_toList]
  exact Nat.sub_le _ _

theorem length_text_le (value : Int64) : (text value).length ≤ 20 := Placed.length_text_le _

/-- An integer is placed in a field, whatever the field holds, as the one canonical way to write it.
The text is read as that integer and no other integer has it; a minus sign stands in it if the
integer is negative, and its length is the number of digits, and of the sign. That is the count
that a call answers with on a sink that takes everything. -/
theorem place_is_canonical (field : Field) (value : Int64) :
    ∃ (placed : Placed) (spelling : Spelling), place? field value = some placed ∧
      placed.text = spelling.text ∧ spelling.Canonical ∧ spelling.value = value.toInt ∧
      (∀ other : Spelling, other.Canonical → other.value = value.toInt →
        other.text = placed.text) ∧
      Numeral.read .signed64 placed.text = .ok value.toInt ∧
      (minus ∈ placed.text ↔ value.toInt < 0) ∧
      placed.text.length =
        Nat.log 10 value.toInt.natAbs + 1 + (if value.toInt < 0 then 1 else 0) ∧
      1 ≤ placed.text.length ∧ placed.text.length ≤ 20 ∧
      (∀ (σ : Type) [Sink σ] (kept : σ → Prop), Willing kept → ∀ sink, kept sink →
        (deliver sink (.integer value)).outcome = .returned (.wrote placed.text.length)) ∧
      (CallResult.wrote placed.text.length).code = placed.text.length ∧
      ∀ (field' : Field) (value' : Int64) (placed' : Placed),
        place? field' value' = some placed' → placed'.text = placed.text → value' = value := by
  have htext : (place field value).text = (Spelling.ofInt value.toInt).text := by
    rw [text_place, Spelling.text_ofInt]
  have hle := (place field value).length_text_le
  refine ⟨place field value, Spelling.ofInt value.toInt, place?_eq_some_place field value, htext,
    Spelling.canonical_ofInt _, Spelling.value_ofInt _, ?_, ?_, ?_, ?_, ?_, hle, ?_, ?_, ?_⟩
  · intro other hcanonical hvalue
    rw [htext, hcanonical.eq_ofInt, hvalue]
  · rw [text_place, ← text_eq_signed, Numeral.read_text]
  · rw [htext, minus_mem_text_ofInt_iff]
  · rw [htext, length_text_ofInt]
  · rw [htext, length_text_ofInt]
    omega
  · intro σ _ kept hw sink hs
    rw [hw.outcome_deliver hs, Message.text_integer, text_eq_signed, text_place]
  · simp only [width] at hle
    simp only [CallResult.code, CallResult.greatestCode]
    omega
  · intro field' value' placed' hp hsame
    obtain rfl := Option.some.inj ((place?_eq_some_place field' value').symm.trans hp)
    apply text_injective
    rw [text_eq_signed, ← text_place field', hsame, text_place, ← text_eq_signed]

/-- The least integer fills a field that was full of signs, and goes out in chunks. -/
theorem place_is_canonical_least :
    let field : Field := Vector.replicate width minus
    let sink : ScriptedSink := ⟨false, [], [], some 7, none, none, [33], [63]⟩
    Willing ScriptedSink.Unhindered ∧ sink.Unhindered ∧
      ∃ placed, place? field Int64.minValue = some placed ∧
        placed.text = [45, 57, 50, 50, 51, 51, 55, 50, 48, 51, 54, 56, 53, 52, 55, 55, 53, 56, 48,
          56] ∧
        Numeral.read .signed64 placed.text = .ok (-9223372036854775808) ∧
        (deliver sink (.integer Int64.minValue)).outcome = .returned (.wrote 20) := by
  intro field sink
  have hs : sink.Unhindered := ⟨rfl, rfl, by decide, rfl⟩
  have htext : (place? field Int64.minValue).map Placed.text =
      some [45, 57, 50, 50, 51, 51, 55, 50, 48, 51, 54, 56, 53, 52, 55, 55, 53, 56, 48, 56] := by
    decide +kernel
  obtain ⟨placed, spelling, hp, -, -, -, -, hread, -, -, -, -, hcount, -⟩ :=
    place_is_canonical field Int64.minValue
  rw [hp] at htext
  have ht := Option.some.inj htext
  have hc := hcount ScriptedSink ScriptedSink.Unhindered ScriptedSink.willing sink hs
  rw [ht] at hc
  exact ⟨ScriptedSink.willing, hs, placed, hp, ht, hread, hc⟩

end Decimal

end Outlet
