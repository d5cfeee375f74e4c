import SyntaxStream.Markdown.CodeBlock
import Mathlib.Data.List.Sort

namespace SyntaxStream

section Repetitions

-- The loop holds the numbers that are settled in reverse, and the last one seen.
theorem pairwise_eraseReps_loop {a : Nat} {rest settled : List Nat}
    (hs : (settled.reverse ++ [a]).Pairwise (· < ·)) (hr : (a :: rest).Pairwise (· ≤ ·)) :
    (List.eraseRepsBy.loop (· == ·) a rest settled).Pairwise (· < ·) := by
  induction rest generalizing a settled with
  | nil => simpa [List.eraseRepsBy.loop] using hs
  | cons b rest ih =>
    obtain ⟨hle, hrest⟩ := List.pairwise_cons.mp hr
    have hab := hle b List.mem_cons_self
    rw [List.eraseRepsBy.loop]
    by_cases he : a = b
    · subst he
      simpa using ih hs hrest
    · have hne : (a == b) = false := by simpa using he
      have hlt : a < b := Nat.lt_of_le_of_ne hab he
      have hnext : ((a :: settled).reverse ++ [b]).Pairwise (· < ·) := by
        rw [List.reverse_cons]
        refine List.pairwise_append.mpr ⟨hs, List.pairwise_singleton .., ?_⟩
        intro x hx y hy
        obtain rfl := List.mem_singleton.mp hy
        rcases List.mem_append.mp hx with hx | hx
        · exact ((List.pairwise_append.mp hs).2.2 x hx a (by simp)).trans hlt
        · obtain rfl := List.mem_singleton.mp hx
          exact hlt
      simpa only [hne] using ih hnext hrest

theorem mem_eraseReps_loop {a x : Nat} {rest settled : List Nat} :
    x ∈ List.eraseRepsBy.loop (· == ·) a rest settled ↔ x ∈ settled ∨ x = a ∨ x ∈ rest := by
  induction rest generalizing a settled with
  | nil =>
    simp only [List.eraseRepsBy.loop, List.mem_reverse, List.mem_cons, List.not_mem_nil, or_false]
    exact or_comm
  | cons b rest ih =>
    rw [List.eraseRepsBy.loop]
    by_cases he : a = b
    · subst he
      simp only [beq_self_eq_true, ih, List.mem_cons]
      tauto
    · have hne : (a == b) = false := by simpa using he
      simp only [hne, ih, List.mem_cons]
      tauto

theorem pairwise_eraseReps {xs : List Nat} (h : xs.Pairwise (· ≤ ·)) :
    xs.eraseReps.Pairwise (· < ·) := by
  cases xs with
  | nil => exact .nil
  | cons x xs => exact pairwise_eraseReps_loop (List.pairwise_singleton ..) h

theorem mem_eraseReps {x : Nat} {xs : List Nat} : x ∈ xs.eraseReps ↔ x ∈ xs := by
  cases xs with
  | nil => exact Iff.rfl
  | cons y xs =>
    rw [List.eraseReps, List.eraseRepsBy, mem_eraseReps_loop]
    simp

end Repetitions

namespace CodeBlock

variable {lineCount n : Nat}

theorem mem_linesBetween {first last : Nat} :
    n ∈ linesBetween lineCount first last ↔ first ≤ n ∧ n ≤ last ∧ n ≤ lineCount := by
  simp only [linesBetween, List.mem_range'_1]
  omega

theorem le_of_mem_entryLines {entry : List Char} (h : n ∈ entryLines lineCount entry) :
    n ≤ lineCount := by
  unfold entryLines at h
  simp only at h
  split at h
  · split at h
    · exact (mem_linesBetween.mp h).2.2
    · cases h
  · split at h
    · split at h
      · obtain rfl := List.mem_singleton.mp h
        assumption
      · cases h
    · cases h

theorem pairwise_selectedLines (fenceMeta : String) (lineCount : Nat) :
    (selectedLines fenceMeta lineCount).Pairwise (· < ·) := by
  unfold selectedLines
  split
  · exact .nil
  · apply pairwise_eraseReps
    have hs : ∀ numbers : List Nat,
        (numbers.mergeSort (· ≤ ·)).Pairwise fun a b => decide (a ≤ b) = true := by
      apply List.pairwise_mergeSort
      · intro a b c hab hbc
        simp only [decide_eq_true_eq] at *
        omega
      · intro a b
        simp only [Bool.or_eq_true, decide_eq_true_eq]
        omega
    simpa using hs _

-- Selected lines are counted from one, and there are no others than those of the block.
theorem bounds_of_mem_selectedLines {fenceMeta : String} (h : n ∈ selectedLines fenceMeta lineCount) :
    1 ≤ n ∧ n ≤ lineCount := by
  unfold selectedLines at h
  split at h
  · cases h
  · rw [mem_eraseReps, List.mem_mergeSort, List.mem_filter, decide_eq_true_eq] at h
    obtain ⟨hrequested, hpos⟩ := h
    obtain ⟨entry, -, hentry⟩ := List.mem_flatMap.mp hrequested
    exact ⟨hpos, le_of_mem_entryLines hentry⟩

end CodeBlock

end SyntaxStream
