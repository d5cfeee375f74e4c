import SyntaxStream.Span
import SyntaxStream.Proofs.Text.Boundary
import Mathlib.Data.List.Basic

namespace SyntaxStream.Segment

open Text

-- The spans cover the bytes from a up to b. None is empty, each starts where the one before it
-- ends, and none ends within a character.
def Tiles (bytes : List Cell) : List Span → Nat → Nat → Prop
  | [], a, b => a = b
  | span :: rest, a, b =>
      span.start = a ∧ a < span.stop ∧ isBoundary bytes span.stop ∧ Tiles bytes rest span.stop b

namespace Tiles

variable {bytes : List Cell} {xs ys : List Span} {a b c : Nat}

theorem append (hx : Tiles bytes xs a b) (hy : Tiles bytes ys b c) : Tiles bytes (xs ++ ys) a c := by
  induction xs generalizing a with
  | nil => exact hx ▸ hy
  | cons span xs ih =>
    obtain ⟨hs, hlt, hb, hrest⟩ := hx
    exact ⟨hs, hlt, hb, ih hrest⟩

theorem exists_of_append (h : Tiles bytes (xs ++ ys) a c) :
    ∃ b, Tiles bytes xs a b ∧ Tiles bytes ys b c := by
  induction xs generalizing a with
  | nil => exact ⟨a, rfl, h⟩
  | cons span xs ih =>
    obtain ⟨hs, hlt, hb, hrest⟩ := h
    obtain ⟨b, hx, hy⟩ := ih hrest
    exact ⟨b, ⟨hs, hlt, hb, hx⟩, hy⟩

theorem le (h : Tiles bytes xs a b) : a ≤ b := by
  induction xs generalizing a with
  | nil => exact Nat.le_of_eq h
  | cons span xs ih =>
    obtain ⟨-, hlt, -, hrest⟩ := h
    exact Nat.le_trans (Nat.le_of_lt hlt) (ih hrest)

theorem stop_unique (h : Tiles bytes xs a b) (h' : Tiles bytes xs a c) : b = c := by
  induction xs generalizing a with
  | nil => exact h.symm.trans h'
  | cons span xs ih => exact ih h.2.2.2 h'.2.2.2

theorem isBoundary_stop (h : Tiles bytes xs a b) (ha : isBoundary bytes a) :
    isBoundary bytes b := by
  induction xs generalizing a with
  | nil => exact h ▸ ha
  | cons span xs ih => exact ih h.2.2.2 h.2.2.1

theorem getLast?_stop (h : Tiles bytes xs a b) : (xs.getLast?.map (·.stop)).getD a = b := by
  induction xs generalizing a with
  | nil => exact h
  | cons span xs ih =>
    have hr := ih h.2.2.2
    cases xs with
    | nil => exact h.2.2.2
    | cons next rest =>
      rw [List.getLast?_cons_cons]
      rw [List.getLast?_cons] at hr ⊢
      exact hr

theorem bounds_of_mem (h : Tiles bytes xs a b) {span : Span} (hm : span ∈ xs) :
    a ≤ span.start ∧ span.start < span.stop ∧ span.stop ≤ b := by
  induction xs generalizing a with
  | nil => cases hm
  | cons first xs ih =>
    obtain ⟨hs, hlt, -, hrest⟩ := h
    rcases List.mem_cons.mp hm with rfl | hm
    · exact ⟨Nat.le_of_eq hs.symm, hs ▸ hlt, hrest.le⟩
    · have hr := ih hrest hm
      omega

theorem exists_mem_of_lt (h : Tiles bytes xs a b) {offset : Nat} (ha : a ≤ offset)
    (hb : offset < b) : ∃ span ∈ xs, span.start ≤ offset ∧ offset < span.stop := by
  induction xs generalizing a with
  | nil =>
    rw [Tiles] at h
    omega
  | cons first xs ih =>
    obtain ⟨rfl, -, -, hrest⟩ := h
    by_cases hlt : offset < first.stop
    · exact ⟨first, List.mem_cons_self, ha, hlt⟩
    · obtain ⟨span, hm, hspan⟩ := ih hrest (Nat.le_of_not_lt hlt)
      exact ⟨span, List.mem_cons_of_mem _ hm, hspan⟩

theorem isBoundary_of_mem (h : Tiles bytes xs a b) (ha : isBoundary bytes a) {span : Span}
    (hm : span ∈ xs) : isBoundary bytes span.start ∧ isBoundary bytes span.stop := by
  induction xs generalizing a with
  | nil => cases hm
  | cons first xs ih =>
    obtain ⟨hs, -, hb, hrest⟩ := h
    rcases List.mem_cons.mp hm with rfl | hm
    · exact ⟨hs ▸ ha, hb⟩
    · exact ih hrest hb hm

theorem append_text {cs : List Char} (more : List Char) (h : Tiles (cells cs) xs a b) :
    Tiles (cells (cs ++ more)) xs a b := by
  induction xs generalizing a with
  | nil => exact h
  | cons span xs ih =>
    obtain ⟨hs, hlt, hb, hrest⟩ := h
    exact ⟨hs, hlt, isBoundary_append more hb, ih hrest⟩

-- Only the spans before an offset end at or before it.
theorem lt_stop_of_mem_dropWhile (h : Tiles bytes xs a b) (limit : Nat) {span : Span}
    (hm : span ∈ xs.dropWhile fun s => s.stop ≤ limit) : limit < span.stop := by
  induction xs generalizing a with
  | nil => cases hm
  | cons first xs ih =>
    obtain ⟨-, -, -, hrest⟩ := h
    by_cases hf : first.stop ≤ limit
    · rw [List.dropWhile_cons_of_pos (by simpa using hf)] at hm
      exact ih hrest hm
    · rw [List.dropWhile_cons_of_neg (by simpa using hf)] at hm
      rcases List.mem_cons.mp hm with rfl | hm
      · exact Nat.lt_of_not_le hf
      · have hr := hrest.bounds_of_mem hm
        omega

theorem takeWhile_concat {last : Span} (h : Tiles bytes (xs ++ [last]) a b) :
    ((xs ++ [last]).takeWhile fun span => span.stop ≤ last.start) = xs := by
  obtain ⟨m, hxs, rfl, hlt, -⟩ := h.exists_of_append
  have hbefore : ∀ span ∈ xs, decide (span.stop ≤ last.start) = true := by
    intro span hm
    simpa using (hxs.bounds_of_mem hm).2.2
  rw [List.takeWhile_append_of_pos hbefore]
  simp [hlt]

-- Two tilings from one start agree as far as the spans of the first are spans of the second.
theorem prefix_of_subset (hx : Tiles bytes xs a b) (hy : Tiles bytes ys a c) (hs : xs ⊆ ys) :
    xs <+: ys := by
  induction xs generalizing a ys with
  | nil => exact List.nil_prefix
  | cons x xs ih =>
    cases ys with
    | nil => exact absurd (hs List.mem_cons_self) (by simp)
    | cons y ys =>
      obtain ⟨hxs, hxlt, -, hxr⟩ := hx
      obtain ⟨hys, hylt, -, hyr⟩ := hy
      have he : x = y := by
        rcases List.mem_cons.mp (hs List.mem_cons_self) with he | hm
        · exact he
        · have hb := hyr.bounds_of_mem hm
          omega
      subst he
      refine List.prefix_cons_inj x |>.mpr (ih hxr hyr fun z hz => ?_)
      rcases List.mem_cons.mp (hs (List.mem_cons_of_mem x hz)) with rfl | hm
      · have hb := hxr.bounds_of_mem hz
        omega
      · exact hm

theorem join_slices (h : Tiles bytes xs a b) :
    String.join (xs.map fun span => slice bytes span.start span.stop) = slice bytes a b := by
  induction xs generalizing a with
  | nil =>
    cases h
    simp
  | cons span xs ih =>
    obtain ⟨rfl, hlt, -, hrest⟩ := h
    rw [List.map_cons, String.join_cons, ih hrest,
      slice_append bytes (Nat.le_of_lt hlt) hrest.le]

end Tiles

end SyntaxStream.Segment
