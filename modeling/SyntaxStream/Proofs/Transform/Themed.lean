import SyntaxStream.Transform
import SyntaxStream.Proofs.Segment.Tiling

namespace SyntaxStream

open Text Segment

-- Each token is a piece of the text that is not empty, and it stands where the tokens before it
-- end.
def InPlace (source : String) (tokens : List Token) : Prop :=
  ∀ before token after, tokens = before ++ token :: after →
    token.content ≠ "" ∧
    token.offset = (String.join (before.map (·.content))).utf8ByteSize ∧
    token.content = slice (cells source.toList) token.offset
      (token.offset + token.content.utf8ByteSize)

namespace Transform

variable {t t' : Transform} {spans : List Span} {a b : Nat}

def tokenOf (t : Transform) (span : Span) : Token where
  content := slice (cells t.source.toList) span.start span.stop
  offset := span.start
  scope := span.scope
  color := span.highlight.bind t.theme.colorFor

theorem themed_eq_map (t : Transform) (spans : List Span) :
    t.themed spans = spans.map t.tokenOf := rfl

@[simp] theorem themed_nil (t : Transform) : t.themed [] = [] := rfl

@[simp] theorem length_themed (t : Transform) (spans : List Span) :
    (t.themed spans).length = spans.length := by
  simp [themed_eq_map]

theorem themed_append (t : Transform) (xs ys : List Span) :
    t.themed (xs ++ ys) = t.themed xs ++ t.themed ys := by
  simp [themed_eq_map]

theorem themed_take (t : Transform) (spans : List Span) (n : Nat) :
    t.themed (spans.take n) = (t.themed spans).take n := by
  simp [themed_eq_map]

@[simp] theorem themed_eq_nil_iff : t.themed spans = [] ↔ spans = [] := by
  simp [themed_eq_map]

theorem themed_append_source {more : String} (hs : t'.source = t.source ++ more)
    (ht : t'.theme = t.theme) (h : Tiles (cells t.source.toList) spans 0 b) :
    t'.themed spans = t.themed spans := by
  simp only [themed, ht]
  apply List.map_congr_left
  intro span hm
  have hb := (h.isBoundary_of_mem (isBoundary_zero _) hm).2
  rw [hs, String.toList_append, slice_append_left _ _ (le_length_of_isBoundary hb)]

theorem join_content_themed (h : Tiles (cells t.source.toList) spans a b) :
    String.join ((t.themed spans).map (·.content)) = slice (cells t.source.toList) a b := by
  rw [← h.join_slices, themed_eq_map, List.map_map]
  rfl

theorem inPlace_themed (h : Tiles (cells t.source.toList) spans 0 b) :
    InPlace t.source (t.themed spans) := by
  intro before token after he
  rw [themed_eq_map] at he
  obtain ⟨xs, rest, rfl, rfl, hrest⟩ := List.map_eq_append_iff.mp he
  obtain ⟨span, ys, rfl, rfl, rfl⟩ := List.map_eq_cons_iff.mp hrest
  obtain ⟨m, hx, hs, hlt, hstop, -⟩ := h.exists_of_append
  have hstart := hx.isBoundary_stop (isBoundary_zero _)
  subst hs
  have hsize := utf8ByteSize_slice (Nat.le_of_lt hlt) hstart hstop
  simp only [tokenOf]
  refine ⟨?_, ?_, ?_⟩
  · intro hempty
    rw [hempty, String.utf8ByteSize_empty] at hsize
    omega
  · rw [← themed_eq_map, join_content_themed hx,
      utf8ByteSize_slice (Nat.zero_le _) (isBoundary_zero _) hstart, Nat.sub_zero]
  · rw [hsize, Nat.add_sub_cancel' (Nat.le_of_lt hlt)]

end Transform

end SyntaxStream
