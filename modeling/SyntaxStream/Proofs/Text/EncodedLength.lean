import SyntaxStream.Proofs.Text.Form

namespace SyntaxStream.Text

theorem length_utf8Bytes (s : String) : (utf8Bytes s).length = s.utf8ByteSize := by
  rw [utf8Bytes, String.toUTF8_eq_toByteArray, ByteArray.toList, toList_loop_eq]
  rfl

-- The characters that are written as they are in a component of an address, but not in a form.
def isMark (c : Char) : Bool := "!~'()".toList.contains c

def marks (s : String) : Nat := s.toList.countP isMark

def spaces (s : String) : Nat := s.toList.countP (· == ' ')

-- The length of some bytes in a component of an address.
def componentBytes (bytes : List UInt8) : Nat :=
  bytes.foldl (fun n b => n + if isComponentByte b then 1 else 3) 0

theorem componentLength_eq (s : String) : componentLength s = componentBytes (utf8Bytes s) := rfl

theorem componentBytes_cons (b : UInt8) (bytes : List UInt8) :
    componentBytes (b :: bytes) = (if isComponentByte b then 1 else 3) + componentBytes bytes := by
  have hshift : ∀ (bytes : List UInt8) (n : Nat),
      bytes.foldl (fun n b => n + if isComponentByte b then 1 else 3) n =
        n + componentBytes bytes := by
    intro bytes
    induction bytes with
    | nil => exact fun n => rfl
    | cons b bytes ih =>
      intro n
      rw [componentBytes, List.foldl_cons, List.foldl_cons, ih, ih]
      omega
  rw [componentBytes, List.foldl_cons, hshift, Nat.zero_add]

theorem componentBytes_append (xs ys : List UInt8) :
    componentBytes (xs ++ ys) = componentBytes xs + componentBytes ys := by
  induction xs with
  | nil => exact (Nat.zero_add _).symm
  | cons x xs ih =>
    rw [List.cons_append, componentBytes_cons, componentBytes_cons, ih, Nat.add_assoc]

-- The bytes of characters beyond ASCII are written with three bytes either way.
theorem written_of_high_ofNat : ∀ n < 256, 0x80 ≤ n →
    (writtenByte (UInt8.ofNat n)).length = 3 ∧ isComponentByte (UInt8.ofNat n) = false := by
  decide +kernel

theorem length_written_of_high {bytes : List UInt8} (h : ∀ b ∈ bytes, 0x80 ≤ b.toNat) :
    (bytes.flatMap writtenByte).length = componentBytes bytes := by
  induction bytes with
  | nil => rfl
  | cons b bytes ih =>
    obtain ⟨hb, hrest⟩ := List.forall_mem_cons.mp h
    obtain ⟨hlength, hcomponent⟩ := written_of_high_ofNat b.toNat b.toNat_lt hb
    rw [UInt8.ofNat_toNat] at hlength hcomponent
    rw [List.flatMap_cons, List.length_append, componentBytes_cons, hlength, hcomponent, ih hrest]
    rfl

theorem le_toNat_of_mem_utf8EncodeChar {c : Char} (hc : 0x80 ≤ c.toNat) {b : UInt8}
    (hb : b ∈ String.utf8EncodeChar c) : 0x80 ≤ b.toNat := by
  have hval : c.val.toNat = c.toNat := rfl
  have hfirst : ¬ c.toNat ≤ 0x7F := by omega
  simp only [String.utf8EncodeChar, hval, if_neg hfirst] at hb
  have hbyte : ∀ m < 256, (UInt8.ofNat m).toNat = m := fun m hm => toNat_ofNat hm
  grind

theorem written_ofNat : ∀ n < 128,
    (writtenByte (UInt8.ofNat n)).length + 2 * (if Char.ofNat n == ' ' then 1 else 0) =
      componentBytes [UInt8.ofNat n] + 2 * (if isMark (Char.ofNat n) then 1 else 0) := by
  decide +kernel

theorem length_written_of_char (c : Char) :
    ((String.utf8EncodeChar c).flatMap writtenByte).length + 2 * (if c == ' ' then 1 else 0) =
      componentBytes (String.utf8EncodeChar c) + 2 * (if isMark c then 1 else 0) := by
  by_cases hc : c.toNat < 0x80
  · have hbytes : String.utf8EncodeChar c = [UInt8.ofNat c.toNat] := by
      have hval : c.val.toNat = c.toNat := rfl
      have hle : c.toNat ≤ 0x7F := by omega
      simp only [String.utf8EncodeChar, hval, if_pos hle]
    have hwritten := written_ofNat c.toNat hc
    rw [Char.ofNat_toNat] at hwritten
    rw [hbytes, List.flatMap_singleton, hwritten]
  · have hlength := length_written_of_high fun b hb =>
      le_toNat_of_mem_utf8EncodeChar (Nat.le_of_not_lt hc) hb
    have hspace : (c == ' ') = false := by
      rw [beq_eq_false_iff_ne]
      rintro rfl
      exact hc (by decide)
    have hmark : isMark c = false := by
      have hall : "!~'()".toList.all (fun c => c.toNat < 0x80) = true := by decide
      rw [isMark, Bool.eq_false_iff, ne_eq, List.contains_iff_mem]
      intro hm
      exact hc (of_decide_eq_true (List.all_eq_true.mp hall c hm))
    rw [hlength, hspace, hmark]

-- A form takes two bytes more for a mark than a component does, and two bytes less for a space.
theorem utf8ByteSize_formEncode (s : String) :
    (formEncode s).utf8ByteSize + 2 * spaces s = componentLength s + 2 * marks s := by
  have hchars : ∀ cs : List Char,
      ((cs.flatMap String.utf8EncodeChar).flatMap writtenByte).length + 2 * cs.countP (· == ' ') =
        componentBytes (cs.flatMap String.utf8EncodeChar) + 2 * cs.countP isMark := by
    intro cs
    induction cs with
    | nil => rfl
    | cons c cs ih =>
      have hchar := length_written_of_char c
      rw [List.flatMap_cons, List.flatMap_append, List.length_append, componentBytes_append,
        List.countP_cons, List.countP_cons]
      omega
  rw [← length_utf8Bytes, utf8Bytes_formEncode, utf8Bytes_eq, spaces, hchars, componentLength_eq,
    utf8Bytes_eq, marks]

-- A text of nothing but marks.
def allMarks (n : Nat) : String := String.ofList (List.replicate n '!')

theorem length_allMarks (n : Nat) :
    componentLength (allMarks n) = n ∧ (formEncode (allMarks n)).utf8ByteSize = 3 * n := by
  have hcomponent : componentLength (allMarks n) = n := by
    rw [componentLength_eq, utf8Bytes_eq, allMarks, String.toList_ofList]
    induction n with
    | zero => rfl
    | succ n ih =>
      have hmark : componentBytes (String.utf8EncodeChar '!') = 1 := by decide +kernel
      rw [List.replicate_succ, List.flatMap_cons, componentBytes_append, ih, hmark, Nat.add_comm]
  have hspaces : spaces (allMarks n) = 0 := by
    rw [spaces, allMarks, String.toList_ofList, List.countP_replicate]
    rfl
  have hmarks : marks (allMarks n) = n := by
    rw [marks, allMarks, String.toList_ofList, List.countP_replicate]
    rfl
  have hwritten := utf8ByteSize_formEncode (allMarks n)
  omega

end SyntaxStream.Text
