import SyntaxStream.Text.Cell

namespace SyntaxStream.Text

-- A byte offset at which a character starts, or the end of the text.
def isBoundary (bytes : List Cell) (offset : Nat) : Bool :=
  offset == bytes.length || bytes[offset]?.any (·.opens)

theorem isBoundary_length (bytes : List Cell) : isBoundary bytes bytes.length := by
  simp [isBoundary]

theorem isBoundary_of_lt {bytes : List Cell} {offset : Nat} (h : offset < bytes.length) :
    isBoundary bytes offset = bytes[offset].opens := by
  simp [isBoundary, h, Nat.ne_of_lt h]

theorem le_length_of_isBoundary {bytes : List Cell} {offset : Nat}
    (h : isBoundary bytes offset) : offset ≤ bytes.length := by
  simp only [isBoundary, Bool.or_eq_true, beq_iff_eq] at h
  rcases h with h | h
  · exact Nat.le_of_eq h
  · obtain ⟨cell, hc, -⟩ := (Option.any_eq_true ..).mp h
    exact Nat.le_of_lt (List.getElem?_eq_some_iff.mp hc).1

theorem isBoundary_zero (cs : List Char) : isBoundary (cells cs) 0 := by
  cases cs with
  | nil => rfl
  | cons c cs => simp [isBoundary, cells_cons, cellsOf]

-- Within the bytes of one character only the first one opens.
theorem isBoundary_cellsOf_append {c : Char} {bytes : List Cell} {offset : Nat}
    (h : isBoundary (cellsOf c ++ bytes) offset) :
    offset = 0 ∨ ∃ rest, offset = (cellsOf c).length + rest ∧ isBoundary bytes rest := by
  by_cases hlt : offset < (cellsOf c).length
  · left
    cases offset with
    | zero => rfl
    | succ k =>
      have hk : k < c.utf8Size - 1 := by
        simp only [cellsOf, List.length_cons, List.length_replicate] at hlt
        omega
      simp [isBoundary, cellsOf, List.getElem?_append, hk] at h
      omega
  · right
    refine ⟨offset - (cellsOf c).length, by omega, ?_⟩
    simp only [isBoundary, List.length_append, List.getElem?_append, hlt, if_false,
      Bool.or_eq_true, beq_iff_eq] at h ⊢
    exact h.imp_left (by omega)

-- The boundaries of a text are the places at which it can be cut into two texts.
theorem exists_append_of_isBoundary {cs : List Char} {offset : Nat}
    (h : isBoundary (cells cs) offset) :
    ∃ xs ys, cs = xs ++ ys ∧ (cells xs).length = offset := by
  induction cs generalizing offset with
  | nil => exact ⟨[], [], rfl, (Nat.le_zero.mp (le_length_of_isBoundary h)).symm⟩
  | cons c cs ih =>
    rw [cells_cons] at h
    rcases isBoundary_cellsOf_append h with rfl | ⟨rest, rfl, hr⟩
    · exact ⟨[], c :: cs, rfl, rfl⟩
    · obtain ⟨xs, ys, rfl, hx⟩ := ih hr
      exact ⟨c :: xs, ys, rfl, by rw [cells_cons, List.length_append, hx]⟩

theorem isBoundary_cells_append (xs ys : List Char) :
    isBoundary (cells (xs ++ ys)) (cells xs).length := by
  rw [cells_append]
  cases ys with
  | nil => simpa [cells] using isBoundary_length (cells xs)
  | cons c ys => simp [isBoundary, cells_cons, cellsOf]

theorem isBoundary_append {xs : List Char} {offset : Nat} (ys : List Char)
    (h : isBoundary (cells xs) offset) : isBoundary (cells (xs ++ ys)) offset := by
  obtain ⟨us, vs, rfl, rfl⟩ := exists_append_of_isBoundary h
  rw [List.append_assoc]
  exact isBoundary_cells_append us (vs ++ ys)

theorem exists_append_append_of_isBoundary {cs : List Char} {a b : Nat} (hab : a ≤ b)
    (ha : isBoundary (cells cs) a) (hb : isBoundary (cells cs) b) :
    ∃ xs ys zs, cs = xs ++ ys ++ zs ∧ (cells xs).length = a ∧ (cells ys).length = b - a := by
  induction cs generalizing a b with
  | nil =>
    have h := Nat.le_zero.mp (le_length_of_isBoundary hb)
    exact ⟨[], [], [], rfl, by simp [cells]; omega, by simp [cells]; omega⟩
  | cons c cs ih =>
    rw [cells_cons] at ha
    rcases isBoundary_cellsOf_append ha with rfl | ⟨a, rfl, ha'⟩
    · obtain ⟨ys, zs, hy, hl⟩ := exists_append_of_isBoundary hb
      exact ⟨[], ys, zs, by simpa using hy, rfl, by simpa using hl⟩
    · rw [cells_cons] at hb
      rcases isBoundary_cellsOf_append hb with rfl | ⟨b, rfl, hb'⟩
      · have := c.utf8Size_pos
        rw [length_cellsOf] at hab
        omega
      · obtain ⟨xs, ys, zs, rfl, hx, hy⟩ := ih (by omega) ha' hb'
        refine ⟨c :: xs, ys, zs, rfl, ?_, by omega⟩
        rw [cells_cons, List.length_append, hx]

theorem isBoundary_append_add (xs ys : List Cell) (n : Nat) :
    isBoundary (xs ++ ys) (xs.length + n) = isBoundary ys n := by
  have hlength : (xs.length + n == xs.length + ys.length) = (n == ys.length) := by
    rw [Bool.eq_iff_iff, beq_iff_eq, beq_iff_eq, Nat.add_left_cancel_iff]
  rw [isBoundary, isBoundary, List.length_append, hlength,
    List.getElem?_append_right (Nat.le_add_right ..), Nat.add_sub_cancel_left]

theorem length_between {bytes : List Cell} {a b : Nat} (hb : b ≤ bytes.length) :
    (between bytes a b).length = b - a := by
  simp only [between, List.length_take, List.length_drop]
  omega

theorem between_append (bytes : List Cell) {a b c : Nat} (hab : a ≤ b) (hbc : b ≤ c) :
    between bytes a c = between bytes a b ++ between bytes b c := by
  have hc : c - a = (b - a) + (c - b) := by omega
  have hd : b = a + (b - a) := by omega
  simp only [between]
  rw [hc, List.take_add, List.drop_drop, ← hd]

theorem between_append_left {xs : List Cell} {b : Nat} (ys : List Cell) (a : Nat)
    (hb : b ≤ xs.length) : between (xs ++ ys) a b = between xs a b := by
  simp only [between, List.drop_append]
  rw [List.take_append_of_le_length]
  rw [List.length_drop]
  omega

theorem between_middle (xs ys zs : List Cell) :
    between (xs ++ ys ++ zs) xs.length (xs.length + ys.length) = ys := by
  simp [between]

theorem slice_append (bytes : List Cell) {a b c : Nat} (hab : a ≤ b) (hbc : b ≤ c) :
    slice bytes a c = slice bytes a b ++ slice bytes b c := by
  simp only [slice, between_append bytes hab hbc, opened_append, String.ofList_append]

@[simp] theorem slice_self (bytes : List Cell) (a : Nat) : slice bytes a a = "" := by
  simp [slice, between, opened]

theorem slice_append_left {xs : List Char} {b : Nat} (ys : List Char) (a : Nat)
    (hb : b ≤ (cells xs).length) : slice (cells (xs ++ ys)) a b = slice (cells xs) a b := by
  rw [slice, cells_append, between_append_left _ _ hb, slice]

-- Between two boundaries stands a part of the text, and not a byte less.
theorem slice_eq_ofList {cs : List Char} {a b : Nat} (hab : a ≤ b)
    (ha : isBoundary (cells cs) a) (hb : isBoundary (cells cs) b) :
    ∃ ys, slice (cells cs) a b = String.ofList ys ∧ (cells ys).length = b - a := by
  obtain ⟨xs, ys, zs, rfl, rfl, hy⟩ := exists_append_append_of_isBoundary hab ha hb
  refine ⟨ys, ?_, hy⟩
  have hb' : b = (cells xs).length + (cells ys).length := by omega
  rw [slice, hb', cells_append, cells_append, between_middle, opened_cells]

theorem byteLength_append (xs ys : List Char) :
    byteLength (xs ++ ys) = byteLength xs + byteLength ys := by
  rw [← length_cells, ← length_cells, ← length_cells, cells_append, List.length_append]

theorem utf8ByteSize_ofList (cs : List Char) :
    (String.ofList cs).utf8ByteSize = (cells cs).length := by
  induction cs with
  | nil => rfl
  | cons c cs ih =>
    rw [← List.singleton_append, String.ofList_append, String.utf8ByteSize_append, ih,
      List.singleton_append, cells_cons, List.length_append, length_cellsOf,
      ← String.singleton_eq_ofList, String.utf8ByteSize_singleton]

theorem utf8ByteSize_eq (s : String) : s.utf8ByteSize = (cells s.toList).length := by
  rw [← utf8ByteSize_ofList, String.ofList_toList]

theorem isBoundary_utf8ByteSize (s : String) : isBoundary (cells s.toList) s.utf8ByteSize :=
  utf8ByteSize_eq s ▸ isBoundary_length _

theorem utf8ByteSize_pos {text : String} (h : text ≠ "") : 0 < text.utf8ByteSize :=
  Nat.pos_of_ne_zero fun hz => h (String.utf8ByteSize_eq_zero_iff.mp hz)

theorem utf8ByteSize_slice {cs : List Char} {a b : Nat} (hab : a ≤ b)
    (ha : isBoundary (cells cs) a) (hb : isBoundary (cells cs) b) :
    (slice (cells cs) a b).utf8ByteSize = b - a := by
  obtain ⟨ys, hs, hl⟩ := slice_eq_ofList hab ha hb
  rw [hs, utf8ByteSize_ofList, hl]

theorem slice_zero_utf8ByteSize (s : String) :
    slice (cells s.toList) 0 s.utf8ByteSize = s := by
  rw [slice, between, utf8ByteSize_eq, List.drop_zero, Nat.sub_zero, List.take_length,
    opened_cells, String.ofList_toList]

end SyntaxStream.Text
