import SyntaxStream.Text.Blank
import Mathlib.Data.List.TakeWhile

namespace SyntaxStream.Text

theorem splitAll_eq_splitOnP (p : Char → Bool) (cs : List Char) :
    splitAll p cs = cs.splitOnP p := by
  induction cs with
  | nil => rfl
  | cons c cs ih =>
    rw [List.splitOnP_cons_eq_if_modifyHead, ← ih]
    have hne : splitAll p cs ≠ [] := ih ▸ List.splitOnP_ne_nil p cs
    obtain ⟨piece, rest, hp⟩ := List.exists_cons_of_ne_nil hne
    simp only [splitAll, List.foldr_cons] at hp ⊢
    rw [hp]
    rfl

theorem splitAll_eq_splitOn (sep : Char) (cs : List Char) :
    splitAll (· == sep) cs = cs.splitOn sep :=
  splitAll_eq_splitOnP (· == sep) cs

theorem length_splitAll_le (p : Char → Bool) (cs : List Char) :
    (splitAll p cs).length ≤ cs.length + 1 := by
  induction cs with
  | nil => exact Nat.le_refl 1
  | cons c cs ih =>
    rw [splitAll_eq_splitOnP] at ih ⊢
    rw [List.splitOnP_cons_eq_if_modifyHead]
    split
    · rw [List.length_cons, List.length_cons]
      omega
    · rw [List.length_modifyHead, List.length_cons]
      omega

-- What has no separator in it belongs to the first piece of what follows.
theorem splitOn_append_of_notMem {sep : Char} {xs : List Char} (ys : List Char) (h : sep ∉ xs) :
    (xs ++ ys).splitOn sep = (ys.splitOn sep).modifyHead (xs ++ ·) := by
  induction xs with
  | nil =>
    rw [List.nil_append]
    cases ys.splitOn sep <;> rfl
  | cons x xs ih =>
    rw [List.mem_cons, not_or] at h
    have hx : (x == sep) = false := by simpa using Ne.symm h.1
    rw [List.cons_append, List.splitOn_cons_eq_if_modifyHead, hx, ih h.2]
    cases ys.splitOn sep <;> rfl

theorem splitOn_cons_self (sep : Char) (cs : List Char) :
    (sep :: cs).splitOn sep = [] :: cs.splitOn sep := by
  simp [List.splitOn_cons_eq_if_modifyHead]

section Once

variable {cs before after : List Char} {sep : Char} {p : Char → Bool}

-- A text is cut at its first character that satisfies p.
theorem splitOnce_eq_some_iff : splitOnce p cs = some (before, after) ↔
    ∃ c, p c = true ∧ (∀ b ∈ before, p b = false) ∧ cs = before ++ c :: after := by
  constructor
  · intro h
    unfold splitOnce at h
    split at h
    · cases h
    · next c rest hrest =>
      cases h
      refine ⟨c, ?_, fun b hb => ?_, ?_⟩
      · have hhead := List.head_dropWhile_not (fun c => !p c) (l := cs) (by simp [hrest])
        simpa [hrest] using hhead
      · simpa using List.mem_takeWhile_imp hb
      · rw [← hrest, List.takeWhile_append_dropWhile]
  · rintro ⟨c, hc, hbefore, rfl⟩
    have hpass : ∀ b ∈ before, (!p b) = true := fun b hb => by rw [hbefore b hb]; rfl
    have htake : (before ++ c :: after).takeWhile (fun c => !p c) = before := by
      rw [List.takeWhile_append_of_pos hpass, List.takeWhile_cons_of_neg (by simp [hc]),
        List.append_nil]
    have hdrop : (before ++ c :: after).dropWhile (fun c => !p c) = c :: after := by
      rw [List.dropWhile_append_of_pos hpass, List.dropWhile_cons_of_neg (by simp [hc])]
    simp only [splitOnce, hdrop, htake]

theorem splitOnce_eq_none_iff : splitOnce p cs = none ↔ ∀ c ∈ cs, p c = false := by
  unfold splitOnce
  cases hrest : cs.dropWhile (fun c => !p c) with
  | nil => simpa using List.dropWhile_eq_nil_iff.mp hrest
  | cons c rest =>
    have hmem : c ∈ cs := (List.dropWhile_suffix _).subset (hrest ▸ List.mem_cons_self)
    have hhead := List.head_dropWhile_not (fun c => !p c) (l := cs) (by simp [hrest])
    have hc : p c = true := by simpa [hrest] using hhead
    simp only [reduceCtorEq, false_iff]
    intro h
    rw [h c hmem] at hc
    cases hc

theorem forall_beq_eq_false_iff : (∀ c ∈ cs, (c == sep) = false) ↔ sep ∉ cs := by
  simp only [beq_eq_false_iff_ne, ne_eq]
  constructor
  · intro h hsep
    exact h sep hsep rfl
  · rintro h c hc rfl
    exact h hc

theorem splitOnce_sep_eq_some_iff : splitOnce (· == sep) cs = some (before, after) ↔
    sep ∉ before ∧ cs = before ++ sep :: after := by
  simp only [splitOnce_eq_some_iff, beq_iff_eq, exists_eq_left, forall_beq_eq_false_iff]

theorem splitOnce_sep_eq_none_iff : splitOnce (· == sep) cs = none ↔ sep ∉ cs := by
  rw [splitOnce_eq_none_iff, forall_beq_eq_false_iff]

end Once

end SyntaxStream.Text
