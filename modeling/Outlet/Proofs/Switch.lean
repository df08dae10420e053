import Mathlib.Data.List.DropRight
import Mathlib.Data.List.TakeWhile
import Outlet.Config
import Outlet.Utf8.Lemmas

/-!
# What turns tracing on

The setting for tracing is any byte string. Tracing stays off under none, under one that is not
UTF-8, and under a text of nothing but white space, with a single zero in it or without. White
space is a list of characters here. Main statements: trimming takes off white space and nothing else
(`trimBlanks_eq_iff`), and no white space around a text makes a difference (`trimBlanks_surrounded`).
-/

namespace Outlet

open List

/-! ## White space -/

/-- The characters with the Unicode property `White_Space`. -/
def whiteSpace : List Char :=
  ['\u0009', '\u000A', '\u000B', '\u000C', '\u000D', '\u0020', '\u0085', '\u00A0', '\u1680',
    '\u2000', '\u2001', '\u2002', '\u2003', '\u2004', '\u2005', '\u2006', '\u2007', '\u2008',
    '\u2009', '\u200A', '\u2028', '\u2029', '\u202F', '\u205F', '\u3000']

/-- A text of nothing but white space. -/
def White (text : List Char) : Prop := ∀ c ∈ text, c ∈ whiteSpace

instance (text : List Char) : Decidable (White text) :=
  List.decidableBAll (· ∈ whiteSpace) text

theorem isBlank_iff {c : Char} : isBlank c ↔ c ∈ whiteSpace := by
  have hnat : c ∈ whiteSpace ↔ c.toNat ∈ whiteSpace.map Char.toNat :=
    (mem_map_of_injective fun _ _ => Char.toNat_inj.mp).symm
  have hlist : whiteSpace.map Char.toNat =
      [0x09, 0x0A, 0x0B, 0x0C, 0x0D, 0x20, 0x85, 0xA0, 0x1680, 0x2000, 0x2001, 0x2002, 0x2003,
        0x2004, 0x2005, 0x2006, 0x2007, 0x2008, 0x2009, 0x200A, 0x2028, 0x2029, 0x202F, 0x205F,
        0x3000] := rfl
  rw [hnat, hlist]
  simp only [isBlank, Bool.or_eq_true, Bool.and_eq_true, decide_eq_true_eq, mem_cons, not_mem_nil,
    or_false]
  omega

section

variable {before after : List Char}

theorem White.isBlank (h : White before) : ∀ c ∈ before, isBlank c :=
  fun c hc => isBlank_iff.mpr (h c hc)

/-! ## Trimming -/

theorem trimBlanks_eq_rdropWhile (text : List Char) :
    trimBlanks text = (text.dropWhile isBlank).rdropWhile isBlank := rfl

theorem rdropWhile_append_white (h : White after) (text : List Char) :
    (text ++ after).rdropWhile isBlank = text.rdropWhile isBlank := by
  have hreverse : ∀ c ∈ after.reverse, isBlank c :=
    fun c hc => h.isBlank c (mem_reverse.mp hc)
  rw [rdropWhile, reverse_append, dropWhile_append_of_pos hreverse, rdropWhile]

/-- White space around a text is taken off, whatever the text. -/
theorem trimBlanks_surrounded (hb : White before) (ha : White after) (text : List Char) :
    trimBlanks (before ++ (text ++ after)) = trimBlanks text := by
  rw [trimBlanks_eq_rdropWhile, trimBlanks_eq_rdropWhile, dropWhile_append_of_pos hb.isBlank,
    dropWhile_append]
  split
  next hempty =>
    rw [isEmpty_iff.mp hempty, dropWhile_eq_nil_iff.mpr ha.isBlank]
  next => exact rdropWhile_append_white ha _

theorem exists_trimBlanks (text : List Char) :
    ∃ before after, White before ∧ White after ∧ text = before ++ (trimBlanks text ++ after) := by
  refine ⟨text.takeWhile isBlank, (text.dropWhile isBlank).rtakeWhile isBlank, ?_, ?_, ?_⟩
  · intro c hc
    exact isBlank_iff.mp (mem_takeWhile_imp hc)
  · intro c hc
    exact isBlank_iff.mp (mem_rtakeWhile_imp hc)
  · rw [trimBlanks_eq_rdropWhile, rdropWhile_append_rtakeWhile, takeWhile_append_dropWhile]

/-- What is left of a text is surrounded by white space in it, and that tells what is left. -/
theorem trimBlanks_eq_iff {text core : List Char} (h : trimBlanks core = core) :
    trimBlanks text = core ↔
      ∃ before after, White before ∧ White after ∧ text = before ++ (core ++ after) := by
  constructor
  · rintro rfl
    exact exists_trimBlanks text
  · rintro ⟨before, after, hb, ha, rfl⟩
    rw [trimBlanks_surrounded hb ha, h]

end

/-! ## Texts -/

/-- A text that leaves tracing off: white space, with a single zero in it or without. -/
inductive Quiet : List Char → Prop where
  | white {text : List Char} (h : White text) : Quiet text
  | zero {before after : List Char} (hb : White before) (ha : White after) :
      Quiet (before ++ '0' :: after)

theorem quiet_iff_trimBlanks {text : List Char} :
    Quiet text ↔ trimBlanks text = [] ∨ trimBlanks text = ['0'] := by
  have hzero : trimBlanks ['0'] = ['0'] := by decide
  rw [trimBlanks_eq_iff rfl, trimBlanks_eq_iff hzero]
  constructor
  · intro h
    cases h with
    | white h => exact .inl ⟨text, [], h, forall_mem_nil _, by simp⟩
    | @zero before after hb ha => exact .inr ⟨before, after, hb, ha, rfl⟩
  · rintro (⟨before, after, hb, ha, rfl⟩ | ⟨before, after, hb, ha, rfl⟩)
    · exact .white (forall_mem_append.mpr ⟨hb, ha⟩)
    · exact .zero hb ha

theorem White.count_zero {text : List Char} (h : White text) : text.count '0' = 0 := by
  rw [count_eq_zero]
  intro hmem
  exact absurd (h '0' hmem) (by decide)

theorem white_of_notMem {text : List Char} (h : ∀ c ∈ text, c ∈ whiteSpace ∨ c = '0')
    (hzero : '0' ∉ text) : White text := by
  intro c hc
  rcases h c hc with hwhite | rfl
  · exact hwhite
  · exact absurd hc hzero

/-- Nothing else stands in the text, and no second zero. -/
theorem quiet_iff {text : List Char} :
    Quiet text ↔ (∀ c ∈ text, c ∈ whiteSpace ∨ c = '0') ∧ text.count '0' ≤ 1 := by
  constructor
  · intro h
    cases h with
    | white h => exact ⟨fun c hc => .inl (h c hc), by rw [h.count_zero]; omega⟩
    | @zero before after hb ha =>
      constructor
      · intro c hc
        rcases mem_append.mp hc with hc | hc
        · exact .inl (hb c hc)
        · rcases mem_cons.mp hc with rfl | hc
          · exact .inr rfl
          · exact .inl (ha c hc)
      · rw [count_append, count_cons_self, hb.count_zero, ha.count_zero]
  · rintro ⟨hall, hcount⟩
    by_cases hmem : '0' ∈ text
    · obtain ⟨before, after, rfl, hbefore⟩ := eq_append_cons_of_mem hmem
      rw [count_append, count_cons_self] at hcount
      have hafter : '0' ∉ after := count_eq_zero.mp (by omega)
      obtain ⟨hb, ha⟩ := forall_mem_append.mp hall
      exact .zero (white_of_notMem hb hbefore)
        (white_of_notMem (forall_mem_cons.mp ha).2 hafter)
    · exact .white (white_of_notMem hall hmem)

/-! ## Settings -/

/-- A setting that leaves tracing off. -/
inductive LeavesOff : Option Bytes → Prop where
  | unset : LeavesOff none
  | malformed {bytes : Bytes} (h : ∀ text, bytes ≠ Utf8.encode text) : LeavesOff (some bytes)
  | quiet {text : String} (h : Quiet text.toList) : LeavesOff (some (Utf8.encode text))

namespace Config

theorem ofSetting_malformed {bytes : Bytes} (h : ∀ text, bytes ≠ Utf8.encode text) :
    ofSetting (some bytes) = ⟨false⟩ := by
  have hnone : Utf8.decode? bytes = none := by
    rw [Option.eq_none_iff_forall_ne_some]
    intro text htext
    exact h text (Utf8.decode?_eq_some_iff.mp htext)
  rw [ofSetting, Option.bind_some, hnone]

theorem ofSetting_encode (text : String) :
    ofSetting (some (Utf8.encode text)) =
      ⟨trimBlanks text.toList ≠ [] && trimBlanks text.toList ≠ ['0']⟩ := by
  rw [ofSetting, Option.bind_some, Utf8.decode?_encode]

theorem log_ofSetting_encode (text : String) :
    (ofSetting (some (Utf8.encode text))).log = false ↔ Quiet text.toList := by
  rw [quiet_iff_trimBlanks, ofSetting_encode]
  simp [Classical.or_iff_not_imp_left]

theorem log_eq_false_iff {setting : Option Bytes} :
    (ofSetting setting).log = false ↔ LeavesOff setting := by
  constructor
  · intro h
    cases setting with
    | none => exact .unset
    | some bytes =>
      by_cases hvalid : ∃ text, bytes = Utf8.encode text
      · obtain ⟨text, rfl⟩ := hvalid
        exact .quiet ((log_ofSetting_encode text).mp h)
      · exact .malformed fun text htext => hvalid ⟨text, htext⟩
  · intro h
    cases h with
    | unset => rfl
    | malformed h => rw [ofSetting_malformed h]
    | quiet h => exact (log_ofSetting_encode _).mpr h

theorem ofSetting_surrounded {before after : String} (hb : White before.toList)
    (ha : White after.toList) (text : String) :
    ofSetting (some (Utf8.encode before ++ (Utf8.encode text ++ Utf8.encode after))) =
      ofSetting (some (Utf8.encode text)) := by
  rw [← Utf8.encode_append, ← Utf8.encode_append, ofSetting_encode, ofSetting_encode,
    String.toList_append, String.toList_append, trimBlanks_surrounded hb ha]

/-- A text turns tracing on if something else than white space and zeros stands in it, or a second
zero. -/
theorem log_eq_true_iff (text : String) :
    (ofSetting (some (Utf8.encode text))).log = true ↔
      (∃ c ∈ text.toList, c ∉ whiteSpace ∧ c ≠ '0') ∨ 2 ≤ text.toList.count '0' := by
  rw [← Bool.not_eq_false, log_ofSetting_encode, quiet_iff, not_and_or, Nat.not_le]
  simp only [not_forall, not_or, exists_prop, Nat.succ_le_iff]

/-- Tracing is off exactly if there is no setting, if the setting is not UTF-8, or if its text is
white space with at most one zero in it. White space on either side of a text makes no difference.
Any other character turns tracing on, and so does a second zero: the characters that only look like
white space are among those that do. -/
theorem only_quiet_settings_leave_off :
    (∀ setting, (ofSetting setting).log = false ↔ LeavesOff setting) ∧
      (∀ before text after : String, White before.toList → White after.toList →
        ofSetting (some (Utf8.encode before ++ (Utf8.encode text ++ Utf8.encode after))) =
          ofSetting (some (Utf8.encode text))) ∧
      (∀ text : String, (ofSetting (some (Utf8.encode text))).log = true ↔
        (∃ c ∈ text.toList, c ∉ whiteSpace ∧ c ≠ '0') ∨ 2 ≤ text.toList.count '0') ∧
      ∀ text ∈ ["00", "+0", "0 0", "\u200B", "\u20600", "0\uFEFF"],
        (ofSetting (some (Utf8.encode text))).log = true := by
  refine ⟨fun _ => log_eq_false_iff, fun _ text _ hb ha => ofSetting_surrounded hb ha text,
    log_eq_true_iff, ?_⟩
  decide +kernel

/-- A zero between white space of one, two and three bytes, and a zero before half a character. -/
theorem only_quiet_settings_leave_off_wide :
    let zero := Utf8.encode "0"
    let around := Utf8.encode "\u3000" ++ (zero ++ Utf8.encode "\u0085\t")
    White "\u3000".toList ∧ White "\u0085\t".toList ∧ ofSetting (some around) = ofSetting (some zero) ∧
      LeavesOff (some zero) ∧ LeavesOff (some around) ∧ LeavesOff (some (zero ++ [0xC2])) := by
  intro zero around
  have hb : White "\u3000".toList := by decide
  have ha : White "\u0085\t".toList := by decide
  obtain ⟨hoff, haround, -, -⟩ := only_quiet_settings_leave_off
  have hsame := haround "\u3000" "0" "\u0085\t" hb ha
  have hzero : LeavesOff (some zero) := (hoff (some zero)).mp (by decide +kernel)
  refine ⟨hb, ha, hsame, hzero, ?_, (hoff _).mp (by decide +kernel)⟩
  rw [← hoff, hsame, hoff]
  exact hzero

end Config

end Outlet
