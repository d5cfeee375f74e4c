import SyntaxStream.Transform
import SyntaxStream.Proofs.Text.Boundary
import Mathlib.Data.List.DropRight

namespace SyntaxStream.Text

-- The text up to its last newline, with it; nothing if there is none.
def completeLines (text : String) : String :=
  String.ofList (text.toList.rdropWhile (· != '\n'))

theorem rdropWhile_prefix_append {α : Type} (p : α → Bool) (xs ys : List α) :
    xs.rdropWhile p <+: (xs ++ ys).rdropWhile p := by
  induction ys using List.reverseRecOn with
  | nil => simp
  | append_singleton ys y ih =>
    rw [← List.append_assoc]
    by_cases hy : p y = true
    · rwa [List.rdropWhile_concat_pos p _ y hy]
    · rw [List.rdropWhile_concat_neg p _ y hy, List.append_assoc]
      exact (List.rdropWhile_prefix p xs).trans (List.prefix_append xs (ys ++ [y]))

theorem char_of_mem_cellsOf {c : Char} {cell : Cell} (h : cell ∈ cellsOf c) : cell.char = c := by
  simp only [cellsOf, List.mem_cons, List.mem_replicate] at h
  rcases h with rfl | ⟨-, rfl⟩ <;> rfl

-- The search for the last newline goes by bytes, the lines by characters.
theorem length_sub_takeWhile (cs : List Char) :
    (cells cs).length - ((cells cs).reverse.takeWhile (·.char != '\n')).length =
      (cells (cs.rdropWhile (· != '\n'))).length := by
  induction cs using List.reverseRecOn with
  | nil => rfl
  | append_singleton cs c ih =>
    have hcells : cells (cs ++ [c]) = cells cs ++ cellsOf c := by
      rw [cells_append, cells_cons]
      exact congrArg _ (List.append_nil _)
    by_cases hc : c = '\n'
    · have hnone : ((cells (cs ++ [c])).reverse.takeWhile (·.char != '\n')) = [] := by
        have hnewline : cellsOf '\n' = [⟨'\n', true⟩] := rfl
        rw [hcells, hc, hnewline, List.reverse_append]
        rfl
      rw [hnone, List.rdropWhile_concat_neg _ _ _ (by simp [hc])]
      rfl
    · have hall : ∀ cell ∈ (cellsOf c).reverse, (cell.char != '\n') = true := fun cell hm => by
        simpa [char_of_mem_cellsOf (List.mem_reverse.mp hm)] using hc
      rw [hcells, List.rdropWhile_concat_pos _ _ _ (by simpa using hc), List.reverse_append,
        List.takeWhile_append_of_pos hall, ← ih]
      simp only [List.length_append, List.length_reverse]
      omega

theorem lineEnd_eq (source : String) :
    Transform.lineEnd source = (completeLines source).utf8ByteSize := by
  rw [completeLines, utf8ByteSize_ofList, ← length_sub_takeWhile]
  rfl

theorem isBoundary_lineEnd (source : String) :
    isBoundary (cells source.toList) (Transform.lineEnd source) := by
  obtain ⟨rest, hr⟩ := List.rdropWhile_prefix (· != '\n') source.toList
  rw [lineEnd_eq, completeLines, utf8ByteSize_ofList]
  generalize source.toList.rdropWhile (· != '\n') = lines at *
  rw [← hr]
  exact isBoundary_cells_append lines rest

theorem slice_lineEnd (source : String) :
    slice (cells source.toList) 0 (Transform.lineEnd source) = completeLines source := by
  obtain ⟨rest, hr⟩ := List.rdropWhile_prefix (· != '\n') source.toList
  rw [lineEnd_eq, completeLines, utf8ByteSize_ofList]
  generalize source.toList.rdropWhile (· != '\n') = lines at *
  have hlines := slice_zero_utf8ByteSize (String.ofList lines)
  rw [utf8ByteSize_ofList, String.toList_ofList] at hlines
  rw [← hr, slice_append_left rest 0 (Nat.le_refl _), hlines]

theorem lineEnd_le_append (source more : String) :
    Transform.lineEnd source ≤ Transform.lineEnd (source ++ more) := by
  obtain ⟨rest, hr⟩ := rdropWhile_prefix_append (· != '\n') source.toList more.toList
  rw [lineEnd_eq, lineEnd_eq, completeLines, completeLines, utf8ByteSize_ofList,
    utf8ByteSize_ofList, String.toList_append, ← hr, cells_append, List.length_append]
  omega

end SyntaxStream.Text
