import Outlet.Utf8

/-!
# Encoding and decoding are inverse

Main statements: the machine reads back each encoded character (`scan_char`), and `decode?`
accepts a byte string exactly if it is the encoding of the string that it returns
(`decode?_eq_some_iff`). A text of single-byte characters is its own encoding, and only the zero
character is encoded with a zero byte.
-/

namespace Outlet.Utf8

theorem encode_append (text more : String) :
    encode (text ++ more) = encode text ++ encode more := by
  simp [encode]

/-! ## Encoded characters are read back -/

theorem scan_begun_last {bits low high : Nat} {b : UInt8} (rest : Bytes)
    (hl : low ≤ b.toNat) (hh : b.toNat ≤ high) :
    scan (some ⟨bits, 0, low, high⟩) (b :: rest) =
      some (Char.ofNat (bits * 64 + (b.toNat - 0x80))) :: scan none rest := by
  simp [scan, step, hl, hh]

theorem scan_begun_more {bits further low high : Nat} {b : UInt8} (rest : Bytes)
    (hl : low ≤ b.toNat) (hh : b.toNat ≤ high) :
    scan (some ⟨bits, further + 1, low, high⟩) (b :: rest) =
      scan (some ⟨bits * 64 + (b.toNat - 0x80), further, 0x80, 0xBF⟩) rest := by
  simp [scan, step, hl, hh]

theorem scan_first {b : UInt8} {begun : Begun} (rest : Bytes)
    (h : first b = ([], some begun)) : scan none (b :: rest) = scan (some begun) rest := by
  simp [scan, step, h]

private theorem toNat_byte {n : Nat} (h : n < 256) : (UInt8.ofNat n).toNat = n := by
  rw [UInt8.toNat_ofNat']; omega

section

variable {v : Nat}

theorem scan_two (hl : 0x7F < v) (hh : v ≤ 0x7FF) (rest : Bytes) :
    scan none (UInt8.ofNat (v / 64 % 32 + 192) :: UInt8.ofNat (v % 64 + 128) :: rest) =
      some (Char.ofNat v) :: scan none rest := by
  have hb : first (UInt8.ofNat (v / 64 % 32 + 192)) = ([], some ⟨v / 64, 0, 0x80, 0xBF⟩) := by
    simp only [first, toNat_byte (show v / 64 % 32 + 192 < 256 by omega)]
    rw [if_neg (by omega), if_neg (by omega), if_pos (by omega)]
    rw [show v / 64 % 32 + 192 - 0xC0 = v / 64 by omega]
  have h2 := toNat_byte (show v % 64 + 128 < 256 by omega)
  rw [scan_first _ hb, scan_begun_last _ (by omega) (by omega), h2]
  rw [show v / 64 * 64 + (v % 64 + 128 - 128) = v by omega]

theorem scan_three (hl : 0x7FF < v) (hh : v ≤ 0xFFFF) (hv : v < 0xD800 ∨ 0xDFFF < v)
    (rest : Bytes) :
    scan none (UInt8.ofNat (v / 4096 % 16 + 224) :: UInt8.ofNat (v / 64 % 64 + 128) ::
      UInt8.ofNat (v % 64 + 128) :: rest) = some (Char.ofNat v) :: scan none rest := by
  have hb : first (UInt8.ofNat (v / 4096 % 16 + 224)) = ([], some ⟨v / 4096, 1,
      if v / 4096 = 0 then 0xA0 else 0x80, if v / 4096 = 13 then 0x9F else 0xBF⟩) := by
    simp only [first, toNat_byte (show v / 4096 % 16 + 224 < 256 by omega)]
    rw [if_neg (by omega), if_neg (by omega), if_neg (by omega), if_pos (by omega)]
    have e1 : (v / 4096 % 16 + 224 = 0xE0) = (v / 4096 = 0) := by apply propext; omega
    have e2 : (v / 4096 % 16 + 224 = 0xED) = (v / 4096 = 13) := by apply propext; omega
    simp only [e1, e2]
    rw [show v / 4096 % 16 + 224 - 0xE0 = v / 4096 by omega]
  have h2 := toNat_byte (show v / 64 % 64 + 128 < 256 by omega)
  have h3 := toNat_byte (show v % 64 + 128 < 256 by omega)
  rw [scan_first _ hb,
    scan_begun_more _ (by rw [h2]; split <;> omega) (by rw [h2]; split <;> omega), h2,
    scan_begun_last _ (by omega) (by omega), h3]
  rw [show (v / 4096 * 64 + (v / 64 % 64 + 128 - 128)) * 64 + (v % 64 + 128 - 128) = v by omega]

theorem scan_four (hl : 0xFFFF < v) (hh : v < 0x110000) (rest : Bytes) :
    scan none (UInt8.ofNat (v / 262144 % 8 + 240) :: UInt8.ofNat (v / 4096 % 64 + 128) ::
      UInt8.ofNat (v / 64 % 64 + 128) :: UInt8.ofNat (v % 64 + 128) :: rest) =
      some (Char.ofNat v) :: scan none rest := by
  have hb : first (UInt8.ofNat (v / 262144 % 8 + 240)) = ([], some ⟨v / 262144, 2,
      if v / 262144 = 0 then 0x90 else 0x80, if v / 262144 = 4 then 0x8F else 0xBF⟩) := by
    simp only [first, toNat_byte (show v / 262144 % 8 + 240 < 256 by omega)]
    rw [if_neg (by omega), if_neg (by omega), if_neg (by omega), if_neg (by omega),
      if_pos (by omega)]
    have e1 : (v / 262144 % 8 + 240 = 0xF0) = (v / 262144 = 0) := by apply propext; omega
    have e2 : (v / 262144 % 8 + 240 = 0xF4) = (v / 262144 = 4) := by apply propext; omega
    simp only [e1, e2]
    rw [show v / 262144 % 8 + 240 - 0xF0 = v / 262144 by omega]
  have h2 := toNat_byte (show v / 4096 % 64 + 128 < 256 by omega)
  have h3 := toNat_byte (show v / 64 % 64 + 128 < 256 by omega)
  have h4 := toNat_byte (show v % 64 + 128 < 256 by omega)
  rw [scan_first _ hb,
    scan_begun_more _ (by rw [h2]; split <;> omega) (by rw [h2]; split <;> omega), h2,
    scan_begun_more _ (by omega) (by omega), h3, scan_begun_last _ (by omega) (by omega), h4]
  rw [show ((v / 262144 * 64 + (v / 4096 % 64 + 128 - 128)) * 64 +
    (v / 64 % 64 + 128 - 128)) * 64 + (v % 64 + 128 - 128) = v by omega]

end

/-- The machine reads an encoded character back, whatever follows it. -/
theorem scan_char (c : Char) (rest : Bytes) :
    scan none (String.utf8EncodeChar c ++ rest) = some c :: scan none rest := by
  have hc : Char.ofNat c.val.toNat = c := Char.ofNat_toNat c
  have hv : c.val.toNat < 0xD800 ∨ 0xDFFF < c.val.toNat ∧ c.val.toNat < 0x110000 := c.valid
  unfold String.utf8EncodeChar
  generalize c.val.toNat = v at hc hv
  subst hc
  dsimp only
  split
  next h =>
    have hb : first (UInt8.ofNat v) = ([some (Char.ofNat v)], none) := by
      simp only [first, toNat_byte (show v < 256 by omega)]
      rw [if_pos (by omega)]
    simp [scan, step, hb]
  next h1 =>
  split
  next h2 => exact scan_two (Nat.lt_of_not_le h1) h2 rest
  next h2 =>
  split
  next h3 => exact scan_three (Nat.lt_of_not_le h2) h3 (by omega) rest
  next h3 => exact scan_four (Nat.lt_of_not_le h3) (by omega) rest

theorem scan_encode (text : String) : scan none (encode text) = text.toList.map some := by
  unfold encode
  induction text.toList with
  | nil => rfl
  | cons c rest ih => rw [List.flatMap_cons, scan_char, ih, List.map_cons]

theorem decode?_encode (text : String) : decode? (encode text) = some text := by
  simp [decode?, scan_encode, List.filterMap_map]

/-! ## Nothing else is accepted -/

private theorem val_ofNat {n : Nat} (h : n.isValidChar) : (Char.ofNat n).val.toNat = n := by
  rw [Char.ofNat, dif_pos h]
  rfl

private theorem byte_eq {n : Nat} {b : UInt8} (h : n = b.toNat) : UInt8.ofNat n = b := by
  rw [h, UInt8.ofNat_toNat]

theorem all_scan_last {bits low high : Nat} {text : Bytes}
    (h : (scan (some ⟨bits, 0, low, high⟩) text).all Option.isSome) :
    ∃ b rest, text = b :: rest ∧ low ≤ b.toNat ∧ b.toNat ≤ high ∧
      scan (some ⟨bits, 0, low, high⟩) text =
        some (Char.ofNat (bits * 64 + (b.toNat - 0x80))) :: scan none rest := by
  cases text with
  | nil => simp [scan] at h
  | cons b rest =>
    by_cases hb : low ≤ b.toNat ∧ b.toNat ≤ high
    · exact ⟨b, rest, rfl, hb.1, hb.2, scan_begun_last rest hb.1 hb.2⟩
    · simp [scan, step, hb] at h

theorem all_scan_more {bits further low high : Nat} {text : Bytes}
    (h : (scan (some ⟨bits, further + 1, low, high⟩) text).all Option.isSome) :
    ∃ b rest, text = b :: rest ∧ low ≤ b.toNat ∧ b.toNat ≤ high ∧
      scan (some ⟨bits, further + 1, low, high⟩) text =
        scan (some ⟨bits * 64 + (b.toNat - 0x80), further, 0x80, 0xBF⟩) rest := by
  cases text with
  | nil => simp [scan] at h
  | cons b rest =>
    by_cases hb : low ≤ b.toNat ∧ b.toNat ≤ high
    · exact ⟨b, rest, rfl, hb.1, hb.2, scan_begun_more rest hb.1 hb.2⟩
    · simp [scan, step, hb] at h

section

variable {b b1 b2 b3 : UInt8}

theorem utf8EncodeChar_two (hl : 0xC2 ≤ b.toNat) (hh : b.toNat < 0xE0)
    (hl1 : 0x80 ≤ b1.toNat) (hh1 : b1.toNat ≤ 0xBF) :
    String.utf8EncodeChar (Char.ofNat ((b.toNat - 0xC0) * 64 + (b1.toNat - 0x80))) =
      [b, b1] := by
  have hv := val_ofNat (n := (b.toNat - 0xC0) * 64 + (b1.toNat - 0x80)) (Or.inl (by omega))
  simp only [String.utf8EncodeChar, hv]
  rw [if_neg (by omega), if_pos (by omega), byte_eq (b := b) (by omega),
    byte_eq (b := b1) (by omega)]

theorem utf8EncodeChar_three (hl : 0xE0 ≤ b.toNat) (hh : b.toNat < 0xF0)
    (hl1 : (if b.toNat = 0xE0 then 0xA0 else 0x80) ≤ b1.toNat)
    (hh1 : b1.toNat ≤ if b.toNat = 0xED then 0x9F else 0xBF)
    (hl2 : 0x80 ≤ b2.toNat) (hh2 : b2.toNat ≤ 0xBF) :
    String.utf8EncodeChar (Char.ofNat
      (((b.toNat - 0xE0) * 64 + (b1.toNat - 0x80)) * 64 + (b2.toNat - 0x80))) =
      [b, b1, b2] := by
  have hv := val_ofNat
    (n := ((b.toNat - 0xE0) * 64 + (b1.toNat - 0x80)) * 64 + (b2.toNat - 0x80)) (by
      unfold Nat.isValidChar; split at hl1 <;> split at hh1 <;> omega)
  have hl1' : 0x80 ≤ b1.toNat := by split at hl1 <;> omega
  have hh1' : b1.toNat ≤ 0xBF := by split at hh1 <;> omega
  have hle : b.toNat = 0xE0 → 0xA0 ≤ b1.toNat := by intro e; rw [if_pos e] at hl1; exact hl1
  clear hl1 hh1
  simp only [String.utf8EncodeChar, hv]
  rw [if_neg (by omega), if_neg (by omega), if_pos (by omega), byte_eq (b := b) (by omega),
    byte_eq (b := b1) (by omega), byte_eq (b := b2) (by omega)]

theorem utf8EncodeChar_four (hl : 0xF0 ≤ b.toNat) (hh : b.toNat < 0xF5)
    (hl1 : (if b.toNat = 0xF0 then 0x90 else 0x80) ≤ b1.toNat)
    (hh1 : b1.toNat ≤ if b.toNat = 0xF4 then 0x8F else 0xBF)
    (hl2 : 0x80 ≤ b2.toNat) (hh2 : b2.toNat ≤ 0xBF)
    (hl3 : 0x80 ≤ b3.toNat) (hh3 : b3.toNat ≤ 0xBF) :
    String.utf8EncodeChar (Char.ofNat ((((b.toNat - 0xF0) * 64 + (b1.toNat - 0x80)) * 64 +
      (b2.toNat - 0x80)) * 64 + (b3.toNat - 0x80))) = [b, b1, b2, b3] := by
  have hl1' : 0x80 ≤ b1.toNat := by split at hl1 <;> omega
  have hh1' : b1.toNat ≤ 0xBF := by split at hh1 <;> omega
  have hle : b.toNat = 0xF0 → 0x90 ≤ b1.toNat := by intro e; rw [if_pos e] at hl1; exact hl1
  have hge : b.toNat = 0xF4 → b1.toNat ≤ 0x8F := by intro e; rw [if_pos e] at hh1; exact hh1
  clear hl1 hh1
  have hv := val_ofNat (n := (((b.toNat - 0xF0) * 64 + (b1.toNat - 0x80)) * 64 +
      (b2.toNat - 0x80)) * 64 + (b3.toNat - 0x80)) (by unfold Nat.isValidChar; omega)
  simp only [String.utf8EncodeChar, hv]
  rw [if_neg (by omega), if_neg (by omega), if_neg (by omega), byte_eq (b := b) (by omega),
    byte_eq (b := b1) (by omega), byte_eq (b := b2) (by omega), byte_eq (b := b3) (by omega)]

end

/-- What begins without a malformed chunk begins with an encoded character. -/
theorem all_scan_cons {b : UInt8} {text : Bytes}
    (h : (scan none (b :: text)).all Option.isSome) :
    ∃ c rest, b :: text = String.utf8EncodeChar c ++ rest ∧
      scan none (b :: text) = some c :: scan none rest := by
  suffices H : ∃ c rest, b :: text = String.utf8EncodeChar c ++ rest by
    obtain ⟨c, rest, hb⟩ := H
    exact ⟨c, rest, hb, by rw [hb, scan_char]⟩
  rw [scan, step, first] at h
  split at h
  next h0 =>
    refine ⟨Char.ofNat b.toNat, text, ?_⟩
    have hv := val_ofNat (n := b.toNat) (Or.inl (by omega))
    simp only [String.utf8EncodeChar, hv]
    rw [if_pos (by omega), UInt8.ofNat_toNat]
    rfl
  next h0 =>
  split at h
  next => simp at h
  next h1 =>
  split at h
  next h2 =>
    obtain ⟨b1, rest, rfl, hl1, hh1, -⟩ := all_scan_last h
    have hchar := utf8EncodeChar_two (Nat.le_of_not_lt h1) h2 hl1 hh1
    exact ⟨_, rest, by rw [hchar]; rfl⟩
  next h2 =>
  split at h
  next h3 =>
    obtain ⟨b1, rest1, rfl, hl1, hh1, e1⟩ := all_scan_more h
    rw [List.nil_append, e1] at h
    obtain ⟨b2, rest, rfl, hl2, hh2, -⟩ := all_scan_last h
    have hchar := utf8EncodeChar_three (Nat.le_of_not_lt h2) h3 hl1 hh1 hl2 hh2
    exact ⟨_, rest, by rw [hchar]; rfl⟩
  next h3 =>
  split at h
  next h4 =>
    obtain ⟨b1, rest1, rfl, hl1, hh1, e1⟩ := all_scan_more h
    rw [List.nil_append, e1] at h
    obtain ⟨b2, rest2, rfl, hl2, hh2, e2⟩ := all_scan_more h
    rw [e2] at h
    obtain ⟨b3, rest, rfl, hl3, hh3, -⟩ := all_scan_last h
    have hchar := utf8EncodeChar_four (Nat.le_of_not_lt h3) h4 hl1 hh1 hl2 hh2 hl3 hh3
    exact ⟨_, rest, by rw [hchar]; rfl⟩
  next => simp at h

theorem eq_flatMap_of_all_scan {text : Bytes} (h : (scan none text).all Option.isSome) :
    text = ((scan none text).filterMap id).flatMap String.utf8EncodeChar := by
  induction hn : text.length using Nat.strongRecOn generalizing text with
  | ind n ih =>
    cases text with
    | nil => rfl
    | cons b tail =>
      obtain ⟨c, rest, hb, hs⟩ := all_scan_cons h
      rw [hs] at h ⊢
      have hpos := String.length_utf8EncodeChar c
      have hc : 0 < c.utf8Size := c.utf8Size_pos
      have hlen := congrArg List.length hb
      rw [List.length_append] at hlen
      have := ih rest.length (by omega) (by simpa using h) rfl
      rw [hb]
      change _ = String.utf8EncodeChar c ++
        ((scan none rest).filterMap id).flatMap String.utf8EncodeChar
      rw [← this]

/-- Reading accepts exactly what writing produces. -/
theorem decode?_eq_some_iff {text : Bytes} {s : String} :
    decode? text = some s ↔ text = encode s := by
  constructor
  · intro h
    rw [decode?] at h
    split at h
    next hall =>
      obtain rfl := Option.some.inj h
      rw [encode, String.toList_ofList]
      exact eq_flatMap_of_all_scan hall
    next => simp at h
  · rintro rfl
    exact decode?_encode s

/-! ## Single-byte characters -/

theorem scan_single {text : Bytes} (h : ∀ byte ∈ text, byte.toNat < 0x80) :
    scan none text = text.map fun byte => some (Char.ofNat byte.toNat) := by
  induction text with
  | nil => rfl
  | cons byte rest ih =>
    obtain ⟨hbyte, hrest⟩ := List.forall_mem_cons.mp h
    have hfirst : first byte = ([some (Char.ofNat byte.toNat)], none) := by
      rw [first, if_pos hbyte]
    rw [scan, step, hfirst, ih hrest]
    rfl

/-- Nothing is lost of a text without longer characters. -/
theorem encode_decodeLossy_single {text : Bytes} (h : ∀ byte ∈ text, byte.toNat < 0x80) :
    encode (decodeLossy text) = text := by
  have hlossy : decode? text = some (decodeLossy text) := by
    simp [decode?, decodeLossy, scan_single h, List.filterMap_map, Function.comp_def]
  exact (decode?_eq_some_iff.mp hlossy).symm

theorem encode_injective {text text' : String} (h : encode text = encode text') : text = text' := by
  have hdecoded := congrArg decode? h
  rw [decode?_encode, decode?_encode] at hdecoded
  exact Option.some.inj hdecoded

/-! ## The zero byte -/

private theorem zero_notMem_map_ofNat (values : List Nat)
    (h : ∀ n ∈ values, 0 < n ∧ n < 256) : 0 ∉ values.map UInt8.ofNat := by
  intro hm
  obtain ⟨n, hn, hz⟩ := List.mem_map.mp hm
  obtain ⟨hpos, hlt⟩ := h n hn
  have hval := congrArg UInt8.toNat hz
  rw [toNat_byte hlt] at hval
  change n = 0 at hval
  omega

theorem zero_notMem_utf8EncodeChar {c : Char} (hc : c ≠ '\x00') :
    0 ∉ String.utf8EncodeChar c := by
  have hpos : c.val.toNat ≠ 0 := by
    intro hz
    apply hc
    rw [← Char.ofNat_toNat c]
    exact congrArg Char.ofNat hz
  unfold String.utf8EncodeChar
  generalize c.val.toNat = v at hpos
  dsimp only
  split
  next => exact zero_notMem_map_ofNat [v] (by simp; omega)
  next =>
  split
  next => exact zero_notMem_map_ofNat [v / 64 % 32 + 192, v % 64 + 128] (by simp; omega)
  next =>
  split
  next =>
    exact zero_notMem_map_ofNat [v / 4096 % 16 + 224, v / 64 % 64 + 128, v % 64 + 128]
      (by simp; omega)
  next =>
    exact zero_notMem_map_ofNat
      [v / 262144 % 8 + 240, v / 4096 % 64 + 128, v / 64 % 64 + 128, v % 64 + 128]
      (by simp; omega)

/-- Only the zero character is encoded with a zero byte. -/
theorem zero_mem_encode_iff (text : String) : 0 ∈ encode text ↔ '\x00' ∈ text.toList := by
  rw [encode, List.mem_flatMap]
  constructor
  · rintro ⟨c, hc, hz⟩
    by_cases hn : c = '\x00'
    · rwa [← hn]
    · exact absurd hz (zero_notMem_utf8EncodeChar hn)
  · intro h
    exact ⟨'\x00', h, by decide⟩

end Outlet.Utf8
