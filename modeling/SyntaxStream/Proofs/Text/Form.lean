import SyntaxStream.Proofs.Text.Pieces
import SyntaxStream.Proofs.Text.Utf8
import SyntaxStream.Text.Percent

namespace SyntaxStream.Text

variable {b : UInt8} {rest : List UInt8}

-- The ways to write a byte: as itself, a blank as a plus sign, or by its digits.
def writes (written : List UInt8) (b : UInt8) : Bool :=
  match written with
  | [x] => if b == 0x20 then x == 0x2B else x == b && x != 0x25 && x != 0x2B
  | [percent, x, y] =>
    percent == 0x25 && hexByte? x == some (b.toNat / 16) && hexByte? y == some (b.toNat % 16)
  | _ => false

theorem formDecodeBytes_plus (rest : List UInt8) :
    formDecodeBytes (0x2B :: rest) = 0x20 :: formDecodeBytes rest := by
  rw [formDecodeBytes.eq_def]
  simp

theorem formDecodeBytes_self (hpercent : b ≠ 0x25) (hplus : b ≠ 0x2B) (rest : List UInt8) :
    formDecodeBytes (b :: rest) = b :: formDecodeBytes rest := by
  rw [formDecodeBytes.eq_def]
  simp [hpercent, hplus]

theorem formDecodeBytes_percent {x y : UInt8} (hx : hexByte? x = some (b.toNat / 16))
    (hy : hexByte? y = some (b.toNat % 16)) (rest : List UInt8) :
    formDecodeBytes (0x25 :: x :: y :: rest) = b :: formDecodeBytes rest := by
  have hvalue : (16 * (b.toNat / 16) + b.toNat % 16).toUInt8 = b := by
    rw [Nat.div_add_mod]
    exact UInt8.ofNat_toNat
  rw [formDecodeBytes]
  simp [hx, hy, hvalue]

theorem formDecodeBytes_of_writes {written : List UInt8} (h : writes written b = true)
    (rest : List UInt8) : formDecodeBytes (written ++ rest) = b :: formDecodeBytes rest := by
  unfold writes at h
  split at h
  · rw [List.singleton_append]
    by_cases hb : b = 0x20
    · rename_i x
      subst hb
      obtain rfl : x = 0x2B := by simpa using h
      exact formDecodeBytes_plus rest
    · simp only [beq_iff_eq, hb, if_false, Bool.and_eq_true, bne_iff_ne] at h
      obtain ⟨⟨rfl, hpercent⟩, hplus⟩ := h
      exact formDecodeBytes_self hpercent hplus rest
  · simp only [Bool.and_eq_true, beq_iff_eq] at h
    obtain ⟨⟨rfl, hx⟩, hy⟩ := h
    exact formDecodeBytes_percent hx hy rest
  · cases h

-- The bytes that a byte of a form is written with.
def writtenByte (b : UInt8) : List UInt8 := (formByte b).flatMap String.utf8EncodeChar

theorem writes_writtenByte_ofNat : ∀ n < 256,
    writes (writtenByte (UInt8.ofNat n)) (UInt8.ofNat n) = true := by
  decide +kernel

theorem writes_writtenByte (b : UInt8) : writes (writtenByte b) b = true := by
  have hb := writes_writtenByte_ofNat b.toNat b.toNat_lt
  rwa [UInt8.ofNat_toNat] at hb

theorem formDecodeBytes_flatMap (bytes : List UInt8) :
    formDecodeBytes (bytes.flatMap writtenByte) = bytes := by
  induction bytes with
  | nil => rw [List.flatMap_nil, formDecodeBytes]
  | cons b bytes ih =>
    rw [List.flatMap_cons, formDecodeBytes_of_writes (writes_writtenByte b), ih]

-- What a form component is written as, byte by byte.
theorem utf8Bytes_formEncode (s : String) :
    utf8Bytes (formEncode s) = (utf8Bytes s).flatMap writtenByte := by
  rw [utf8Bytes_eq, formEncode, String.toList_ofList, List.flatMap_assoc]
  rfl

-- A component of a form is read back.
theorem formDecode_formEncode (s : String) : formDecode (formEncode s) = s := by
  rw [formDecode, utf8Bytes_formEncode, formDecodeBytes_flatMap, decodeLossy_utf8Bytes]

-- Neither of the two separators of a form is written within a component.
theorem notMem_formByte_ofNat : ∀ n < 256,
    '&' ∉ formByte (UInt8.ofNat n) ∧ '=' ∉ formByte (UInt8.ofNat n) := by
  decide +kernel

theorem notMem_formEncode (s : String) :
    '&' ∉ (formEncode s).toList ∧ '=' ∉ (formEncode s).toList := by
  have hbyte : ∀ b : UInt8, '&' ∉ formByte b ∧ '=' ∉ formByte b := by
    intro b
    have hb := notMem_formByte_ofNat b.toNat b.toNat_lt
    rwa [UInt8.ofNat_toNat] at hb
  rw [formEncode, String.toList_ofList]
  constructor
  · intro h
    obtain ⟨b, -, hb⟩ := List.mem_flatMap.mp h
    exact (hbyte b).1 hb
  · intro h
    obtain ⟨b, -, hb⟩ := List.mem_flatMap.mp h
    exact (hbyte b).2 hb

-- A pair as it stands in a form.
def writtenPair (pair : String × String) : List Char :=
  (formEncode pair.1).toList ++ '=' :: (formEncode pair.2).toList

-- A pair falls apart at its equals sign.
theorem split_writtenPair (pair : String × String) :
    (writtenPair pair).takeWhile (· != '=') = (formEncode pair.1).toList ∧
      (writtenPair pair).dropWhile (· != '=') = '=' :: (formEncode pair.2).toList := by
  have hname : ∀ c ∈ (formEncode pair.1).toList, (c != '=') = true := by
    intro c hc
    rw [bne_iff_ne]
    rintro rfl
    exact (notMem_formEncode pair.1).2 hc
  rw [writtenPair, List.takeWhile_append_of_pos hname, List.dropWhile_append_of_pos hname]
  simp

theorem formPair_writtenPair (pair : String × String) : formPair (writtenPair pair) = pair := by
  obtain ⟨hname, hvalue⟩ := split_writtenPair pair
  rw [formPair, hname, hvalue]
  simp [formDecode_formEncode]

theorem notMem_writtenPair (pair : String × String) : '&' ∉ writtenPair pair := by
  rw [writtenPair, List.mem_append, List.mem_cons]
  rintro (h | h | h)
  · exact (notMem_formEncode pair.1).1 h
  · exact absurd h (by decide)
  · exact (notMem_formEncode pair.2).1 h

theorem toList_encodeForm (pairs : List (String × String)) :
    (encodeForm pairs).toList = List.intercalate ['&'] (pairs.map writtenPair) := by
  rw [encodeForm, String.toList_intercalate, List.map_map]
  refine congrArg (List.intercalate ['&']) (List.map_congr_left fun pair _ => ?_)
  simp [writtenPair]

-- A form that is not empty falls apart into its pairs.
theorem splitAll_encodeForm {pairs : List (String × String)} (hp : pairs ≠ []) :
    splitAll (· == '&') (encodeForm pairs).toList = pairs.map writtenPair := by
  have hnone : ∀ piece ∈ pairs.map writtenPair, '&' ∉ piece := by
    intro piece hm
    obtain ⟨pair, -, rfl⟩ := List.mem_map.mp hm
    exact notMem_writtenPair pair
  have hne : pairs.map writtenPair ≠ [] := by
    rwa [ne_eq, List.map_eq_nil_iff]
  rw [splitAll_eq_splitOn, toList_encodeForm, List.splitOn_intercalate _ hnone hne]

-- The names and values of a form are read back in their order.
theorem decodeForm_encodeForm (pairs : List (String × String)) :
    decodeForm (encodeForm pairs) = pairs := by
  by_cases hp : pairs = []
  · subst hp
    rfl
  · have hall : ∀ piece ∈ pairs.map writtenPair, (!piece.isEmpty) = true := by
      intro piece hm
      obtain ⟨pair, -, rfl⟩ := List.mem_map.mp hm
      simp [writtenPair]
    have hread : formPair ∘ writtenPair = id := funext formPair_writtenPair
    rw [decodeForm, splitAll_encodeForm hp, List.filter_eq_self.mpr hall, List.map_map, hread,
      List.map_id]

end SyntaxStream.Text
