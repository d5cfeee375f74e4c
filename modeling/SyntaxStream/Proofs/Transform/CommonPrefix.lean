import SyntaxStream.Transform
import Mathlib.Data.List.Basic

namespace SyntaxStream

-- The longest list with which both lists start.
def longestCommonPrefix : List Span → List Span → List Span
  | x :: xs, y :: ys => if x = y then x :: longestCommonPrefix xs ys else []
  | _, _ => []

theorem prefix_longestCommonPrefix_iff {ps xs ys : List Span} :
    ps <+: longestCommonPrefix xs ys ↔ ps <+: xs ∧ ps <+: ys := by
  induction ps generalizing xs ys with
  | nil => simp
  | cons p ps ih =>
    cases xs with
    | nil => simp [longestCommonPrefix]
    | cons x xs =>
      cases ys with
      | nil => simp [longestCommonPrefix]
      | cons y ys =>
        by_cases he : x = y
        · subst he
          simp only [longestCommonPrefix, if_true, List.cons_prefix_cons, ih]
          tauto
        · simp only [longestCommonPrefix, he, if_false, List.cons_prefix_cons, List.prefix_nil]
          constructor
          · intro h
            cases h
          · rintro ⟨⟨rfl, -⟩, rfl, -⟩
            exact absurd rfl he

theorem longestCommonPrefix_prefix_left (xs ys : List Span) : longestCommonPrefix xs ys <+: xs :=
  (prefix_longestCommonPrefix_iff.mp (List.prefix_refl _)).1

theorem longestCommonPrefix_prefix_right (xs ys : List Span) : longestCommonPrefix xs ys <+: ys :=
  (prefix_longestCommonPrefix_iff.mp (List.prefix_refl _)).2

theorem longestCommonPrefix_append (ps xs ys : List Span) :
    longestCommonPrefix (ps ++ xs) (ps ++ ys) = ps ++ longestCommonPrefix xs ys := by
  induction ps with
  | nil => rfl
  | cons p ps ih => simp [longestCommonPrefix, ih]

theorem take_eq_take_of_le {xs ys : List Span} {n : Nat}
    (h : n ≤ (longestCommonPrefix xs ys).length) : xs.take n = ys.take n := by
  have hx := congrArg (List.take n) (List.prefix_iff_eq_take.mp (longestCommonPrefix_prefix_left xs ys))
  have hy := congrArg (List.take n) (List.prefix_iff_eq_take.mp (longestCommonPrefix_prefix_right xs ys))
  rw [List.take_take, Nat.min_eq_left h] at hx hy
  exact hx.symm.trans hy

namespace Transform

theorem commonLength_eq (xs ys : List Span) :
    commonLength xs ys = (longestCommonPrefix ys xs).length := by
  induction xs generalizing ys with
  | nil => cases ys <;> rfl
  | cons x xs ih =>
    cases ys with
    | nil => rfl
    | cons y ys =>
      have hc := ih ys
      simp only [commonLength] at hc
      by_cases he : y = x
      · subst he
        simp [commonLength, longestCommonPrefix, hc]
      · simp [commonLength, longestCommonPrefix, he, Ne.symm he]

end Transform

end SyntaxStream
