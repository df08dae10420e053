import Outlet.Proofs.Grammar
import Outlet.Proofs.Rendering
import Outlet.Proofs.Replays

/-!
# Normal forms of numerals

An integer can be written in many ways: with a plus sign, with zeros in front, as minus zero. A
replay of a call with any of them prints the canonical one. It is read as the same integer, it is
what a replay of its own call prints, and it is the same for two numerals only if their integers
are.
-/

namespace Outlet.Script

open Decimal.Numeral

variable {config : Config} {file : Bytes}

/-! ## Replays of one argument -/

/-- A replay of the argument alone, on a file that has no limit, adds a text to the file and
answers with its length. -/
def Prints (config : Config) (file : Bytes) (argument text : String) : Prop :=
  ∃ calls, Script.read [argument] = .ok calls ∧
    replay config ⟨⟨.file, none, file⟩, []⟩ calls =
      ([⟨(Utf8.encode text).length, Utf8.encode text, ""⟩],
        ⟨⟨.file, none, file ++ Utf8.encode text⟩, []⟩)

theorem read_singleton_eq_ok_iff {argument : String} {calls : List Call} :
    Script.read [argument] = .ok calls ↔
      ∃ call, Call.read argument = .ok call ∧ calls = [call] := by
  rw [Script.read, readFrom_cons_eq_ok_iff]
  simp [readFrom]

theorem replay_singleton_of_file (config : Config) (file : Bytes) (call : Call) :
    replay config ⟨⟨.file, none, file⟩, []⟩ [call] =
      ([⟨min (call.bytes.length : Int) 2147483647, call.bytes, ""⟩],
        ⟨⟨.file, none, file ++ call.bytes⟩, []⟩) := by
  have htakes : Descriptor.Takes ⟨.file, none, file⟩ call.message.text :=
    Descriptor.takes_of_unlimited (.inl rfl) (.inr rfl) _
  rw [replay, Session.run_cons, Session.run_nil, call.invoke_eq, Stdout.send_of_takes rfl htakes,
    call.text_message, Descriptor.store_of_file rfl]
  simp only [List.drop_left]
  rfl

/-! ## Integers -/

theorem encode_payload_eq_canonical (family : Family) (value : Int64) :
    Utf8.encode (Call.payload (.integer family value)) = (Spelling.ofInt value.toInt).text := by
  rw [Call.encode_payload_integer, Decimal.text_eq_signed, Spelling.text_ofInt]

/-- A replay of a call with an integer prints the decimal text of the integer, and nothing else. -/
theorem prints_iff_of_read {argument text : String} {family : Family} {value : Int64}
    (h : Call.read argument = .ok (.integer family value)) :
    Prints config file argument text ↔ Utf8.encode text = Decimal.text value := by
  have hle := Decimal.length_text_le value
  have hrun := replay_singleton_of_file config file (.integer family value)
  simp only [Call.bytes] at hrun
  rw [Int.min_eq_left (by omega)] at hrun
  constructor
  · rintro ⟨calls, hread, hreplay⟩
    obtain ⟨call, hcall, rfl⟩ := read_singleton_eq_ok_iff.mp hread
    obtain rfl := Except.ok.inj (h.symm.trans hcall)
    rw [hrun] at hreplay
    have hreport := (List.cons.inj (Prod.mk.inj hreplay).1).1
    exact (congrArg Entry.Report.out hreport).symm
  · intro htext
    refine ⟨_, read_singleton_eq_ok_iff.mpr ⟨_, h, rfl⟩, ?_⟩
    rw [hrun, htext]

/-- The payload that an integer is written with is the only canonical one. -/
theorem payload_eq_iff_canonical {family : Family} {value : Int64} {payload : String}
    {spelling : Spelling} (written : Utf8.encode payload = spelling.text)
    (denoted : spelling.value = value.toInt) :
    Call.payload (.integer family value) = payload ↔ spelling.Canonical := by
  have hnormal := encode_payload_eq_canonical family value
  constructor
  · rintro rfl
    rw [Spelling.text_injective (written.symm.trans hnormal)]
    exact Spelling.canonical_ofInt _
  · intro hcanonical
    apply Utf8.encode_injective
    rw [hnormal, written, hcanonical.eq_ofInt, denoted]

/-- A replay of a call with an integer prints the normal form of its payload, of at most twenty
bytes. It is read as the same integer in either family, and written canonically; it is the payload
itself if and only if that is canonical. Of the other payloads that are read, those of the same
integer print it, and only those; so it prints itself. -/
theorem replay_prints_normal_form {family : Family} {payload : String} {call : Call}
    (h : Call.read ((Kind.integer family).written payload) = .ok call) :
    ∃ (value : Int64) (spelling : Spelling) (normal : String),
      call = .integer family value ∧
      Utf8.encode payload = spelling.text ∧ spelling.value = value.toInt ∧
      (∀ config file, Prints config file ((Kind.integer family).written payload) normal) ∧
      (Utf8.encode normal).length ≤ 20 ∧
      (∀ other, Call.read ((Kind.integer other).written normal) = .ok (.integer other value)) ∧
      (∃ written : Spelling, Utf8.encode normal = written.text ∧ written.Canonical) ∧
      (normal = payload ↔ spelling.Canonical) ∧
      (∀ config file other payload' value',
        Call.read ((Kind.integer other).written payload') = .ok (.integer other value') →
          (Prints config file ((Kind.integer other).written payload') normal ↔ value' = value)) ∧
      ∀ config file other, Prints config file ((Kind.integer other).written normal) normal := by
  obtain ⟨value, spelling, rfl, written, denoted⟩ :=
    Kind.read_integer_eq_ok_iff.mp ((Call.read_written _ _).symm.trans h)
  have hnormal := Call.encode_payload_integer family value
  have hread : ∀ other, Call.read ((Kind.integer other).written
      (Call.payload (.integer family value))) = .ok (.integer other value) :=
    fun other => Call.read_argument (.integer other value)
  refine ⟨value, spelling, Call.payload (.integer family value), rfl, written, denoted, ?_, ?_,
    hread, ?_, payload_eq_iff_canonical written denoted, ?_, ?_⟩
  · intro config file
    exact (prints_iff_of_read h).mpr hnormal
  · rw [hnormal]
    exact Decimal.length_text_le value
  · exact ⟨_, encode_payload_eq_canonical family value, Spelling.canonical_ofInt _⟩
  · intro config file other payload' value' h'
    rw [prints_iff_of_read h', hnormal]
    exact ⟨fun htext => (Decimal.text_injective htext).symm, fun hvalue => by rw [hvalue]⟩
  · intro config file other
    exact (prints_iff_of_read (hread other)).mpr hnormal

/-- Minus zero is printed as zero, and so is plus zero in the other family; seven is not. -/
theorem replay_prints_normal_form_minus_zero :
    let argument := (Kind.integer .terminated).written "-00"
    argument = "cint:-00" ∧ Call.read argument = .ok (.integer .terminated 0) ∧
      Prints ⟨true⟩ [33] argument "0" ∧
      Prints ⟨true⟩ [33] ((Kind.integer .sized).written "+0") "0" ∧
      ¬ Prints ⟨true⟩ [33] ((Kind.integer .sized).written "7") "0" := by
  intro argument
  have h : Call.read argument = .ok (.integer .terminated 0) := by decide +kernel
  obtain ⟨value, -, normal, hcall, -, -, hprints, -, -, -, -, hothers, -⟩ :=
    replay_prints_normal_form h
  obtain ⟨-, rfl⟩ := Call.integer.inj hcall
  have hnormal : normal = "0" := by
    apply Utf8.encode_injective
    rw [(prints_iff_of_read h).mp (hprints ⟨true⟩ [33])]
    decide +kernel
  subst hnormal
  refine ⟨by decide, h, hprints ⟨true⟩ [33], ?_, ?_⟩
  · exact (hothers ⟨true⟩ [33] .sized "+0" 0 (by decide +kernel)).mpr rfl
  · intro hseven
    exact absurd ((hothers ⟨true⟩ [33] .sized "7" 7 (by decide +kernel)).mp hseven) (by decide)

end Outlet.Script
