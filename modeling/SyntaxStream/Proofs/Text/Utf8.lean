import SyntaxStream.Text.Utf8

namespace SyntaxStream.Text

section Bytes

theorem drop_eq_cons_get! {bytes : ByteArray} {i : Nat} (h : i < bytes.size) :
    bytes.data.toList.drop i = bytes.get! i :: bytes.data.toList.drop (i + 1) := by
  have hi : i < bytes.data.toList.length := h
  have hget : bytes.get! i = bytes.data.toList[i] := by
    simp [ByteArray.get!, ByteArray.size_data, h]
  rw [List.drop_eq_getElem_cons hi, hget]

theorem toList_loop_eq (bytes : ByteArray) (i : Nat) (found : List UInt8) :
    ByteArray.toList.loop bytes i found = found.reverse ++ bytes.data.toList.drop i := by
  fun_induction ByteArray.toList.loop bytes i found with
  | case1 i found h ih =>
    rw [ih, drop_eq_cons_get! h, List.reverse_cons, List.append_assoc, List.singleton_append]
  | case2 i found h =>
    have hend : bytes.data.toList.length ≤ i := Nat.le_of_not_lt h
    rw [List.drop_eq_nil_of_le hend, List.append_nil]

-- The bytes of a text are those of its characters.
theorem utf8Bytes_eq (s : String) : utf8Bytes s = s.toList.flatMap String.utf8EncodeChar := by
  rw [utf8Bytes, String.toUTF8_eq_toByteArray, ByteArray.toList, toList_loop_eq,
    ← String.utf8Encode_toList]
  simp [List.utf8Encode]

end Bytes

variable {b : UInt8} {lead : Lead} {bits : Nat} {low high : UInt8} {rest : List UInt8}

theorem toNat_ofNat {n : Nat} (h : n < 256) : (UInt8.ofNat n).toNat = n := by
  rw [UInt8.toNat_ofNat', Nat.mod_eq_of_lt h]

theorem decodeFrom_ascii (h : b.toNat < 0x80) (rest : List UInt8) :
    decodeFrom none (b :: rest) = Char.ofNat b.toNat :: decodeFrom none rest := by
  have hb : b < 0x80 := UInt8.lt_iff_toNat_lt.mpr h
  rw [decodeFrom, if_pos hb]

theorem decodeFrom_lead (h : 0x80 ≤ b.toNat) (hl : lead? b = some lead) (rest : List UInt8) :
    decodeFrom none (b :: rest) = decodeFrom (some lead) rest := by
  have hb : ¬ b < 0x80 := fun hlt => Nat.not_lt.mpr h (UInt8.lt_iff_toNat_lt.mp hlt)
  rw [decodeFrom, if_neg hb, hl]

-- A byte after which others follow.
theorem decodeFrom_middle {n : Nat} (h : low.toNat ≤ b.toNat ∧ b.toNat ≤ high.toNat)
    (rest : List UInt8) :
    decodeFrom (some ⟨n + 2, bits, low, high⟩) (b :: rest) =
      decodeFrom (some ⟨n + 1, 64 * bits + (b.toNat - 0x80), 0x80, 0xBF⟩) rest := by
  have hb : (decide (low ≤ b) && decide (b ≤ high)) = true := by
    simpa [UInt8.le_iff_toNat_le] using h
  have hn : ¬ n + 2 ≤ 1 := by omega
  rw [decodeFrom, if_pos hb]
  simp only [hn, if_false]
  rfl

-- The last byte of a character.
theorem decodeFrom_last (h : low.toNat ≤ b.toNat ∧ b.toNat ≤ high.toNat) (rest : List UInt8) :
    decodeFrom (some ⟨1, bits, low, high⟩) (b :: rest) =
      Char.ofNat (64 * bits + (b.toNat - 0x80)) :: decodeFrom none rest := by
  have hb : (decide (low ≤ b) && decide (b ≤ high)) = true := by
    simpa [UInt8.le_iff_toNat_le] using h
  rw [decodeFrom, if_pos hb]
  simp only [Nat.le_refl, if_true]

theorem lead?_two (h : 0xC2 ≤ b.toNat) (h' : b.toNat ≤ 0xDF) :
    lead? b = some ⟨1, b.toNat - 0xC0, 0x80, 0xBF⟩ := by
  rw [lead?, if_pos ⟨h, h'⟩]

theorem lead?_three (h : 0xE0 ≤ b.toNat) (h' : b.toNat ≤ 0xEF) :
    lead? b = some ⟨2, b.toNat - 0xE0, if b.toNat = 0xE0 then 0xA0 else 0x80,
      if b.toNat = 0xED then 0x9F else 0xBF⟩ := by
  unfold lead?
  grind

theorem lead?_four (h : 0xF0 ≤ b.toNat) (h' : b.toNat ≤ 0xF4) :
    lead? b = some ⟨3, b.toNat - 0xF0, if b.toNat = 0xF0 then 0x90 else 0x80,
      if b.toNat = 0xF4 then 0x8F else 0xBF⟩ := by
  unfold lead?
  grind

theorem toNat_lt_or_of_valid (c : Char) :
    c.toNat < 0xD800 ∨ 0xDFFF < c.toNat ∧ c.toNat < 0x110000 := c.valid

theorem decodeFrom_two {v : Nat} (hv : 0x7F < v) (hv' : v ≤ 0x7FF) (rest : List UInt8) :
    decodeFrom none (UInt8.ofNat (v / 64 % 32 + 0xC0) :: UInt8.ofNat (v % 64 + 0x80) :: rest) =
      Char.ofNat v :: decodeFrom none rest := by
  have hfirst : (UInt8.ofNat (v / 64 % 32 + 0xC0)).toNat = v / 64 + 0xC0 := by
    rw [toNat_ofNat (by omega)]
    omega
  have hsecond : (UInt8.ofNat (v % 64 + 0x80)).toNat = v % 64 + 0x80 := toNat_ofNat (by omega)
  have hlead := lead?_two (b := UInt8.ofNat (v / 64 % 32 + 0xC0)) (by omega) (by omega)
  have hvalue : 64 * (v / 64 + 0xC0 - 0xC0) + (v % 64 + 0x80 - 0x80) = v := by omega
  rw [decodeFrom_lead (by omega) hlead, decodeFrom_last, hfirst, hsecond, hvalue]
  rw [hsecond]
  have hlow : (0x80 : UInt8).toNat = 0x80 := rfl
  have hhigh : (0xBF : UInt8).toNat = 0xBF := rfl
  omega

-- The second byte of a character of three is bounded by the first one.
theorem decodeFrom_three {v : Nat} (hv : 0x7FF < v) (hv' : v ≤ 0xFFFF)
    (hvalid : v < 0xD800 ∨ 0xDFFF < v) (rest : List UInt8) :
    decodeFrom none (UInt8.ofNat (v / 4096 % 16 + 0xE0) :: UInt8.ofNat (v / 64 % 64 + 0x80) ::
        UInt8.ofNat (v % 64 + 0x80) :: rest) =
      Char.ofNat v :: decodeFrom none rest := by
  have hfirst : (UInt8.ofNat (v / 4096 % 16 + 0xE0)).toNat = v / 4096 + 0xE0 := by
    rw [toNat_ofNat (by omega)]
    omega
  have hsecond : (UInt8.ofNat (v / 64 % 64 + 0x80)).toNat = v / 64 % 64 + 0x80 :=
    toNat_ofNat (by omega)
  have hthird : (UInt8.ofNat (v % 64 + 0x80)).toNat = v % 64 + 0x80 := toNat_ofNat (by omega)
  have hlead := lead?_three (b := UInt8.ofNat (v / 4096 % 16 + 0xE0)) (by omega) (by omega)
  rw [hfirst] at hlead
  have hvalue : 64 * (64 * (v / 4096 + 0xE0 - 0xE0) + (v / 64 % 64 + 0x80 - 0x80)) +
      (v % 64 + 0x80 - 0x80) = v := by omega
  rw [decodeFrom_lead (by omega) hlead, decodeFrom_middle (n := 0), decodeFrom_last, hsecond,
    hthird, hvalue]
  · rw [hthird]
    exact ⟨by simp, by simp; omega⟩
  · rw [hsecond]
    constructor
    · split
      · simp; omega
      · simp
    · split
      · simp; omega
      · simp; omega

theorem decodeFrom_four {v : Nat} (hv : 0xFFFF < v) (hv' : v < 0x110000) (rest : List UInt8) :
    decodeFrom none (UInt8.ofNat (v / 262144 % 8 + 0xF0) :: UInt8.ofNat (v / 4096 % 64 + 0x80) ::
        UInt8.ofNat (v / 64 % 64 + 0x80) :: UInt8.ofNat (v % 64 + 0x80) :: rest) =
      Char.ofNat v :: decodeFrom none rest := by
  have hfirst : (UInt8.ofNat (v / 262144 % 8 + 0xF0)).toNat = v / 262144 + 0xF0 := by
    rw [toNat_ofNat (by omega)]
    omega
  have hsecond : (UInt8.ofNat (v / 4096 % 64 + 0x80)).toNat = v / 4096 % 64 + 0x80 :=
    toNat_ofNat (by omega)
  have hthird : (UInt8.ofNat (v / 64 % 64 + 0x80)).toNat = v / 64 % 64 + 0x80 :=
    toNat_ofNat (by omega)
  have hfourth : (UInt8.ofNat (v % 64 + 0x80)).toNat = v % 64 + 0x80 := toNat_ofNat (by omega)
  have hlead := lead?_four (b := UInt8.ofNat (v / 262144 % 8 + 0xF0)) (by omega) (by omega)
  rw [hfirst] at hlead
  have hvalue : 64 * (64 * (64 * (v / 262144 + 0xF0 - 0xF0) + (v / 4096 % 64 + 0x80 - 0x80)) +
      (v / 64 % 64 + 0x80 - 0x80)) + (v % 64 + 0x80 - 0x80) = v := by omega
  rw [decodeFrom_lead (by omega) hlead, decodeFrom_middle (n := 1), decodeFrom_middle (n := 0),
    decodeFrom_last, hsecond, hthird, hfourth, hvalue]
  · rw [hfourth]
    exact ⟨by simp, by simp; omega⟩
  · rw [hthird]
    exact ⟨by simp, by simp; omega⟩
  · rw [hsecond]
    constructor
    · split
      · simp; omega
      · simp
    · split
      · simp; omega
      · simp; omega

-- A character is read back from its bytes.
theorem decodeFrom_utf8EncodeChar (c : Char) (rest : List UInt8) :
    decodeFrom none (String.utf8EncodeChar c ++ rest) = c :: decodeFrom none rest := by
  have hvalid := toNat_lt_or_of_valid c
  have hc : Char.ofNat c.toNat = c := Char.ofNat_toNat c
  have hval : c.val.toNat = c.toNat := rfl
  simp only [String.utf8EncodeChar, hval]
  by_cases h1 : c.toNat ≤ 0x7F
  · have hb : (UInt8.ofNat c.toNat).toNat = c.toNat := toNat_ofNat (by omega)
    rw [if_pos h1, List.singleton_append, decodeFrom_ascii (by omega), hb, hc]
  · rw [if_neg h1]
    by_cases h2 : c.toNat ≤ 0x7FF
    · have htwo := decodeFrom_two (Nat.lt_of_not_le h1) h2 rest
      rw [hc] at htwo
      rwa [if_pos h2]
    · rw [if_neg h2]
      by_cases h3 : c.toNat ≤ 0xFFFF
      · have hthree := decodeFrom_three (Nat.lt_of_not_le h2) h3 (by omega) rest
        rw [hc] at hthree
        rwa [if_pos h3]
      · have hfour := decodeFrom_four (Nat.lt_of_not_le h3) (by omega) rest
        rw [hc] at hfour
        rwa [if_neg h3]

-- A text is read back from its bytes.
theorem decodeLossy_utf8Bytes (s : String) : decodeLossy (utf8Bytes s) = s := by
  have hchars : ∀ cs : List Char, decodeFrom none (cs.flatMap String.utf8EncodeChar) = cs := by
    intro cs
    induction cs with
    | nil => rfl
    | cons c cs ih => rw [List.flatMap_cons, decodeFrom_utf8EncodeChar, ih]
  rw [decodeLossy, utf8Bytes_eq, hchars, String.ofList_toList]

end SyntaxStream.Text
