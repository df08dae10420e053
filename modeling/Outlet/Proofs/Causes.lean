import Outlet.Proofs.Grammar

/-!
# Why an argument is rejected

What is said of an argument that cannot be read depends on the first thing that is wrong with it:
that it has no colon, that its word is none of the six, or, in the payload, the first zero byte or
the first place where a numeral breaks off. The texts are given here in full, the outermost first.
-/

namespace Outlet.Script

open List Decimal.Numeral

/-- The texts with which an argument is rejected. -/
inductive Rejects (argument : String) : List String → Prop where
  | noColon (none : ':' ∉ argument.toList) :
      Rejects argument ["expected <kind>:<payload>, got `" ++ argument ++ "`"]
  | unknownWord {word payload : String} (splits : SplitsAt argument word payload)
      (unknown : word ∉ ["str", "line", "int", "cstr", "cline", "cint"]) :
      Rejects argument ["unknown call kind `" ++ word ++ "`"]
  | embeddedZero {word payload : String} {offset : Nat} (splits : SplitsAt argument word payload)
      (closed : word = "cstr" ∨ word = "cline")
      (first : IsLeast {index | (Utf8.encode payload)[index]? = some 0} offset) :
      Rejects argument ["C string payload contains a NUL byte",
        "nul byte found in provided data at position: " ++ toString offset]
  | notAnInteger {payload : String} {cause : Decimal.Numeral.Error}
      (splits : SplitsAt argument "int" payload)
      (refused : Refused .signed64 (Utf8.encode payload) cause) :
      Rejects argument ["`" ++ payload ++ "` is not a 64-bit integer", cause.message]
  | notALong {payload : String} {cause : Decimal.Numeral.Error}
      (splits : SplitsAt argument "cint" payload)
      (refused : Refused .signed64 (Utf8.encode payload) cause) :
      Rejects argument ["`" ++ payload ++ "` is not a C long", cause.message]

/-! ## The first zero byte -/

/-- The bytes in front of the first zero byte are as many as its offset. -/
theorem isLeast_length_takeWhile {bytes : Bytes} (h : 0 ∈ bytes) :
    IsLeast {index | bytes[index]? = some 0} (bytes.takeWhile (· ≠ 0)).length := by
  obtain ⟨front, rest, rfl, hfront⟩ := eq_append_cons_of_mem h
  have htake : (front ++ 0 :: rest).takeWhile (· ≠ 0) = front := by
    rw [takeWhile_append_of_pos, takeWhile_cons_of_neg (by simp), append_nil]
    intro byte hbyte
    rw [decide_eq_true_eq]
    rintro rfl
    exact hfront hbyte
  rw [htake]
  constructor
  · change (front ++ 0 :: rest)[front.length]? = some 0
    simp
  · intro index hindex
    by_contra hlt
    change (front ++ 0 :: rest)[index]? = some 0 at hindex
    rw [getElem?_append_left (Nat.not_le.mp hlt)] at hindex
    exact hfront (mem_of_getElem? hindex)

/-! ## Payloads -/

namespace Kind

theorem ofKeyword?_eq_none_iff {word : String} :
    ofKeyword? word = none ↔ word ∉ ["str", "line", "int", "cstr", "cline", "cint"] := by
  rw [ofKeyword?, find?_eq_none]
  simp [all, keyword, eq_comm]

theorem read_text_eq_error_iff {family : Family} {shape : Shape} {payload : String}
    {error : ArgumentError} :
    (text family shape).read payload = .error error ↔
      family = .terminated ∧
        ∃ offset, IsLeast {index | (Utf8.encode payload)[index]? = some 0} offset ∧
          error = .embeddedZero offset := by
  rw [read]
  by_cases h : family = .terminated → '\x00' ∉ payload.toList
  · rw [dif_pos h]
    constructor
    · intro he
      cases he
    · rintro ⟨hfamily, offset, hleast, -⟩
      exact absurd ((Utf8.zero_mem_encode_iff payload).mp (mem_of_getElem? hleast.1)) (h hfamily)
  · rw [dif_neg h]
    obtain ⟨hfamily, hzero⟩ := Classical.not_imp.mp h
    have hmem : 0 ∈ Utf8.encode payload := (Utf8.zero_mem_encode_iff payload).mpr (not_not.mp hzero)
    have hleast := isLeast_length_takeWhile hmem
    constructor
    · intro he
      exact ⟨hfamily, _, hleast, (Except.error.inj he).symm⟩
    · rintro ⟨-, offset, hoffset, rfl⟩
      rw [hoffset.unique hleast]

theorem read_integer_eq_error_iff {family : Family} {payload : String} {error : ArgumentError} :
    (integer family).read payload = .error error ↔
      ∃ cause, Refused .signed64 (Utf8.encode payload) cause ∧
        error = .notAnInteger family payload cause := by
  simp only [← read_eq_error_iff signed64_least_neg signed64_holds_zero]
  rw [read]
  cases Decimal.Numeral.read .signed64 (Utf8.encode payload) with
  | ok value => simp
  | error cause => simp [eq_comm]

end Kind

/-! ## Arguments -/

theorem splitsAt_iff {argument word payload : String} :
    SplitsAt argument word payload ↔
      splitAtColon? argument.toList = some (word.toList, payload.toList) := by
  rw [splitAtColon?_eq_some_iff]
  exact ⟨fun h => ⟨h.text, h.first⟩, fun h => ⟨h.1, h.2⟩⟩

namespace Call

theorem read_of_unknown {argument word payload : String} (h : SplitsAt argument word payload)
    (hw : Kind.ofKeyword? word = none) : Call.read argument = .error (.unknownKind word) := by
  rw [Call.read, splitsAt_iff.mp h]
  simp only [String.ofList_toList, hw]

/-- An argument without a colon, with an unknown word, or with a payload that cannot be read. -/
theorem read_eq_error_iff {argument : String} {error : ArgumentError} :
    Call.read argument = .error error ↔
      (':' ∉ argument.toList ∧ error = .noColon argument) ∨
        (∃ word payload, SplitsAt argument word payload ∧ Kind.ofKeyword? word = none ∧
          error = .unknownKind word) ∨
        ∃ (kind : Kind) (payload : String), SplitsAt argument kind.keyword payload ∧
          kind.read payload = .error error := by
  constructor
  · intro h
    rw [Call.read] at h
    split at h
    next hnone =>
      exact .inl ⟨splitAtColon?_eq_none_iff.mp hnone, (Except.error.inj h).symm⟩
    next word payload hsplit =>
      have hsplits : SplitsAt argument (String.ofList word) (String.ofList payload) := by
        rw [splitsAt_iff, hsplit]
        simp
      split at h
      next hkind => exact .inr (.inl ⟨_, _, hsplits, hkind, (Except.error.inj h).symm⟩)
      next kind hkind =>
        rw [Kind.eq_keyword_of_ofKeyword? hkind] at hsplits
        exact .inr (.inr ⟨kind, _, hsplits, h⟩)
  · rintro (⟨hnone, rfl⟩ | ⟨word, payload, hsplits, hkind, rfl⟩ | ⟨kind, payload, hsplits, h⟩)
    · rw [Call.read, splitAtColon?_eq_none_iff.mpr hnone]
    · exact read_of_unknown hsplits hkind
    · rw [splitsAt_keyword_iff.mp hsplits, read_written, h]

theorem rejects_of_read {argument : String} {error : ArgumentError}
    (h : Call.read argument = .error error) : Rejects argument error.chain.toList := by
  rcases read_eq_error_iff.mp h with
    ⟨hnone, rfl⟩ | ⟨word, payload, hsplits, hkind, rfl⟩ | ⟨kind, payload, hsplits, hread⟩
  · exact .noColon hnone
  · exact .unknownWord hsplits (Kind.ofKeyword?_eq_none_iff.mp hkind)
  · cases kind with
    | text family shape =>
      obtain ⟨rfl, offset, hleast, rfl⟩ := Kind.read_text_eq_error_iff.mp hread
      refine .embeddedZero hsplits ?_ hleast
      cases shape with
      | string => exact .inl rfl
      | line => exact .inr rfl
    | integer family =>
      obtain ⟨cause, hrefused, rfl⟩ := Kind.read_integer_eq_error_iff.mp hread
      cases family with
      | sized => exact .notAnInteger hsplits hrefused
      | terminated => exact .notALong hsplits hrefused

theorem read_of_splitsAt {argument payload : String} (kind : Kind) {error : ArgumentError}
    (hsplits : SplitsAt argument kind.keyword payload) (h : kind.read payload = .error error) :
    Call.read argument = .error error :=
  read_eq_error_iff.mpr (.inr (.inr ⟨kind, payload, hsplits, h⟩))

theorem exists_read_of_rejects {argument : String} {texts : List String}
    (h : Rejects argument texts) :
    ∃ error, Call.read argument = .error error ∧ error.chain.toList = texts := by
  cases h with
  | noColon hnone => exact ⟨_, read_eq_error_iff.mpr (.inl ⟨hnone, rfl⟩), rfl⟩
  | unknownWord hsplits hunknown =>
    exact ⟨_, read_of_unknown hsplits (Kind.ofKeyword?_eq_none_iff.mpr hunknown), rfl⟩
  | @embeddedZero word payload offset hsplits hclosed hleast =>
    have hread (shape : Shape) :
        (Kind.text .terminated shape).read payload = .error (.embeddedZero offset) :=
      Kind.read_text_eq_error_iff.mpr ⟨rfl, offset, hleast, rfl⟩
    rcases hclosed with rfl | rfl
    · exact ⟨_, read_of_splitsAt (.text .terminated .string) hsplits (hread .string), rfl⟩
    · exact ⟨_, read_of_splitsAt (.text .terminated .line) hsplits (hread .line), rfl⟩
  | @notAnInteger payload cause hsplits hrefused =>
    have hread : (Kind.integer .sized).read payload = .error (.notAnInteger .sized payload cause) :=
      Kind.read_integer_eq_error_iff.mpr ⟨cause, hrefused, rfl⟩
    exact ⟨_, read_of_splitsAt (.integer .sized) hsplits hread, rfl⟩
  | @notALong payload cause hsplits hrefused =>
    have hread : (Kind.integer .terminated).read payload =
        .error (.notAnInteger .terminated payload cause) :=
      Kind.read_integer_eq_error_iff.mpr ⟨cause, hrefused, rfl⟩
    exact ⟨_, read_of_splitsAt (.integer .terminated) hsplits hread, rfl⟩

/-- An argument is rejected in exactly the words that are laid down for what is wrong with it. Of a
numeral that breaks off, all that stands behind the first fault makes no difference. -/
theorem read_rejects_with_cause :
    (∀ argument texts,
      (∃ error, Call.read argument = .error error ∧ error.chain.toList = texts) ↔
        Rejects argument texts) ∧
      ∀ (family : Family) (payload : String) (sign : Option Sign) (row : Bytes) (index : Nat)
        (byte : UInt8) (tail : Bytes),
        (sign = none → ∀ other : Sign, row.head? ≠ some other.byte) →
          IsLeast {index | FaultAt .signed64 (sign.getD .plus) row index} index →
            row[index]? = some byte →
              Utf8.encode payload =
                (sign.map Sign.byte).toList ++ (row.take (index + 1) ++ tail) →
                Call.read ((Kind.integer family).written payload) =
                  .error (.notAnInteger family payload ((sign.getD .plus).cause byte)) := by
  refine ⟨?_, ?_⟩
  · intro argument texts
    constructor
    · rintro ⟨error, hread, rfl⟩
      exact rejects_of_read hread
    · exact exists_read_of_rejects
  · intro family payload sign row index byte tail hs hleast hbyte hpayload
    rw [read_written, Kind.read, hpayload,
      read_of_fault signed64_least_neg signed64_holds_zero hs hleast hbyte]

/-- One below the least integer, in front of bytes that are no digits in two different ways. -/
theorem read_rejects_with_cause_below_range :
    let row : Bytes := [57, 50, 50, 51, 51, 55, 50, 48, 51, 54, 56, 53, 52, 55, 55, 53, 56, 48, 57]
    let payload := "-9223372036854775809é"
    let cause := "number too small to fit in target type"
    IsLeast {index | FaultAt .signed64 .minus (row ++ [45]) index} 18 ∧
      Utf8.encode payload = 45 :: (row ++ [195, 169]) ∧
      Call.read ("cint:" ++ payload) = .error (.notAnInteger .terminated payload .tooSmall) ∧
      Rejects ("cint:" ++ payload) ["`-9223372036854775809é` is not a C long", cause] := by
  intro row payload cause
  have hoff : BreaksOff .signed64 .minus (row.take 18) 57 :=
    ⟨⟨by simp [row, IsDigit], by decide⟩, .inr (by decide)⟩
  have hleast : IsLeast {index | FaultAt .signed64 .minus (row ++ [45]) index} 18 :=
    hoff.isLeast signed64_holds_zero [45]
  have hpayload : Utf8.encode payload = 45 :: (row ++ [195, 169]) := by decide
  obtain ⟨hrejects, hfault⟩ := read_rejects_with_cause
  have hread := hfault .terminated payload (some .minus) (row ++ [45]) 18 57 [195, 169]
    (fun h => absurd h (by decide)) hleast rfl hpayload
  exact ⟨hleast, hpayload, hread, (hrejects _ _).mp ⟨_, hread, rfl⟩⟩

end Call

end Outlet.Script
