import Outlet.Proofs.Numerals
import Outlet.Proofs.Scripts

/-!
# The grammar of calls

A call is spelled as one of six words, the first colon, and a payload: any text, a text without a
zero character where it is closed by one, or a numeral. Reading accepts the spellings of calls and
nothing else, and every call is read back from the argument that it is written as.
-/

namespace Outlet.Script

open Decimal.Numeral

/-- The argument is a word, its first colon, and a payload, which may hold further colons. -/
structure SplitsAt (argument word payload : String) : Prop where
  text : argument.toList = word.toList ++ ':' :: payload.toList
  first : ':' ∉ word.toList

/-- A word and a payload that spell a call. -/
inductive Spells : String → String → Call → Prop where
  | string (payload : String) : Spells "str" payload (.text .sized .string payload nofun)
  | line (payload : String) : Spells "line" payload (.text .sized .line payload nofun)
  | integer {payload : String} {value : Int64} (spelling : Spelling)
      (written : Utf8.encode payload = spelling.text) (denoted : spelling.value = value.toInt) :
      Spells "int" payload (.integer .sized value)
  | closedString {payload : String} (h : '\x00' ∉ payload.toList) :
      Spells "cstr" payload (.text .terminated .string payload fun _ => h)
  | closedLine {payload : String} (h : '\x00' ∉ payload.toList) :
      Spells "cline" payload (.text .terminated .line payload fun _ => h)
  | closedInteger {payload : String} {value : Int64} (spelling : Spelling)
      (written : Utf8.encode payload = spelling.text) (denoted : spelling.value = value.toInt) :
      Spells "cint" payload (.integer .terminated value)

/-! ## Payloads -/

theorem signed64_least_neg : Bounds.signed64.least < 0 := by decide

theorem signed64_holds_zero : Bounds.signed64.Holds 0 := ⟨by decide, by decide⟩

theorem signed64_holds_iff {n : Int} :
    Bounds.signed64.Holds n ↔ ∃ value : Int64, value.toInt = n := by
  constructor
  · rintro ⟨hlo, hhi⟩
    refine ⟨Int64.ofInt n, Int64.toInt_ofInt_of_le ?_ ?_⟩
    · simpa [Bounds.signed64] using hlo
    · simp only [Bounds.signed64] at hhi
      omega
  · rintro ⟨value, rfl⟩
    have hlo := value.le_toInt
    have hhi := value.toInt_lt
    constructor
    · simpa [Bounds.signed64] using hlo
    · simp only [Bounds.signed64]
      omega

namespace Kind

/-- The payload of an integer is a numeral of its value. -/
theorem read_integer_eq_ok_iff {family : Family} {payload : String} {call : Call} :
    (integer family).read payload = .ok call ↔
      ∃ (value : Int64) (spelling : Spelling), call = .integer family value ∧
        Utf8.encode payload = spelling.text ∧ spelling.value = value.toInt := by
  rw [read]
  constructor
  · intro h
    split at h
    next n hn =>
      obtain ⟨spelling, htext, hvalue, hholds⟩ :=
        (read_eq_ok_iff signed64_least_neg signed64_holds_zero).mp hn
      obtain ⟨value, rfl⟩ := signed64_holds_iff.mp hholds
      rw [Int64.ofInt_toInt] at h
      exact ⟨value, spelling, (Except.ok.inj h).symm, htext, hvalue⟩
    next => cases h
  · rintro ⟨value, spelling, rfl, htext, hvalue⟩
    have hholds : Bounds.signed64.Holds spelling.value :=
      signed64_holds_iff.mpr ⟨value, hvalue.symm⟩
    rw [htext, read_spelling (fun _ => signed64_least_neg) signed64_holds_zero hholds, hvalue]
    simp only [Int64.ofInt_toInt]

end Kind

/-- What a payload under a word spells is what is read of it under the kind of the word. -/
theorem spells_iff {word payload : String} {call : Call} :
    Spells word payload call ↔
      ∃ kind : Kind, word = kind.keyword ∧ kind.read payload = .ok call := by
  constructor
  · intro h
    cases h with
    | string payload =>
      exact ⟨.text .sized .string, rfl, Kind.read_text_eq_ok_iff.mpr ⟨nofun, rfl⟩⟩
    | line payload =>
      exact ⟨.text .sized .line, rfl, Kind.read_text_eq_ok_iff.mpr ⟨nofun, rfl⟩⟩
    | integer spelling written denoted =>
      exact ⟨.integer .sized, rfl,
        Kind.read_integer_eq_ok_iff.mpr ⟨_, spelling, rfl, written, denoted⟩⟩
    | closedString h =>
      exact ⟨.text .terminated .string, rfl, Kind.read_text_eq_ok_iff.mpr ⟨fun _ => h, rfl⟩⟩
    | closedLine h =>
      exact ⟨.text .terminated .line, rfl, Kind.read_text_eq_ok_iff.mpr ⟨fun _ => h, rfl⟩⟩
    | closedInteger spelling written denoted =>
      exact ⟨.integer .terminated, rfl,
        Kind.read_integer_eq_ok_iff.mpr ⟨_, spelling, rfl, written, denoted⟩⟩
  · rintro ⟨kind, rfl, hread⟩
    cases kind with
    | text family shape =>
      obtain ⟨terminable, rfl⟩ := Kind.read_text_eq_ok_iff.mp hread
      cases family with
      | sized =>
        cases shape with
        | string => exact .string payload
        | line => exact .line payload
      | terminated =>
        cases shape with
        | string => exact .closedString (terminable rfl)
        | line => exact .closedLine (terminable rfl)
    | integer family =>
      obtain ⟨value, spelling, rfl, written, denoted⟩ := Kind.read_integer_eq_ok_iff.mp hread
      cases family with
      | sized => exact .integer spelling written denoted
      | terminated => exact .closedInteger spelling written denoted

/-! ## Arguments -/

theorem splitsAt_keyword_iff {argument payload : String} {kind : Kind} :
    SplitsAt argument kind.keyword payload ↔ argument = kind.written payload := by
  constructor
  · intro h
    apply String.toList_injective
    rw [h.text, Kind.written]
    simp
  · rintro rfl
    exact ⟨by simp [Kind.written], kind.colon_notMem_keyword⟩

namespace Call

/-- The decimal text of an integer is a string of its own. -/
theorem encode_payload_integer (family : Family) (value : Int64) :
    Utf8.encode (payload (.integer family value)) = Decimal.text value := by
  apply Utf8.encode_decodeLossy_single
  intro byte hbyte
  rw [Decimal.text_eq_signed, ← Spelling.text_ofInt] at hbyte
  exact Spelling.toNat_lt_of_mem_text hbyte

theorem argument_eq_written (call : Call) : call.argument = call.kind.written call.payload := rfl

/-- A call is read back from the argument that it is written as. -/
theorem read_argument (call : Call) : Call.read call.argument = .ok call := by
  rw [argument_eq_written, read_written]
  cases call with
  | text family shape content terminable =>
    exact Kind.read_text_eq_ok_iff.mpr ⟨terminable, rfl⟩
  | integer family value =>
    rw [kind, Kind.read, encode_payload_integer, Decimal.Numeral.read_text]
    simp only [Int64.ofInt_toInt]

/-- An argument is read as a call if its word, up to the first colon, and its payload spell that
call, and not otherwise. Every call is read back from its argument, in which an integer stands as
its decimal text. -/
theorem read_accepts_spellings :
    (∀ argument call, Call.read argument = .ok call ↔
      ∃ word payload, SplitsAt argument word payload ∧ Spells word payload call) ∧
      (∀ call, Call.read call.argument = .ok call) ∧
      ∀ family value, Utf8.encode (payload (.integer family value)) = Decimal.text value := by
  refine ⟨?_, read_argument, encode_payload_integer⟩
  intro argument call
  rw [read_eq_ok_iff]
  constructor
  · rintro ⟨kind, payload, hwritten, hread⟩
    exact ⟨kind.keyword, payload, splitsAt_keyword_iff.mpr hwritten,
      spells_iff.mpr ⟨kind, rfl, hread⟩⟩
  · rintro ⟨word, payload, hsplits, hspells⟩
    obtain ⟨kind, rfl, hread⟩ := spells_iff.mp hspells
    exact ⟨kind, payload, splitsAt_keyword_iff.mp hsplits, hread⟩

end Call

end Outlet.Script
