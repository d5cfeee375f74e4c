import SyntaxStream.Proofs.Segment.Newline
import SyntaxStream.Proofs.Text.LineRuns

namespace SyntaxStream

open Text Segment

namespace Text

-- A newline in a window is a newline in the text of the window.
theorem newline_mem_slice {cs : List Char} {cell : Cell} {a b i : Nat} (ha : a ≤ i) (hb : i < b)
    (hi : (cells cs)[i]? = some cell) (hn : cell.char = '\n') :
    '\n' ∈ (slice (cells cs) a b).toList := by
  have hbetween : cell ∈ between (cells cs) a b := by
    apply List.mem_of_getElem? (i := i - a)
    rw [between, List.getElem?_take_of_lt (by omega), List.getElem?_drop, ← hi]
    congr 1
    omega
  have hopens := opens_of_newline (List.mem_of_getElem? hi) hn
  rw [slice, String.toList_ofList, opened, List.mem_filterMap]
  exact ⟨cell, hbetween, by rw [if_pos hopens, hn]⟩

end Text

namespace Segment

variable {bytes : List Cell} {captures : List Capture} {xs ys : List Span} {a b c : Nat}

theorem paint_append_left {cs : List Char} (more : List Char) (captures : List Capture)
    (hb : b ≤ (cells cs).length) :
    paint (cells (cs ++ more)) ⟨a, b⟩ captures = paint (cells cs) ⟨a, b⟩ captures := by
  rw [paint, painted, cells_append, between_append_left _ _ hb]
  rfl

-- However a text goes on, its whole lines are painted as they were.
theorem paint_of_lines (source more : String) (captures : List Capture)
    (hl : Transform.lineEnd source ≤ c) (hc : c ≤ (cells (source ++ more).toList).length) :
    paint (cells (source ++ more).toList) ⟨0, c⟩ captures =
      paint (cells source.toList) ⟨0, Transform.lineEnd source⟩ captures ++
        paint (cells (source ++ more).toList) ⟨Transform.lineEnd source, c⟩ captures := by
  have hcut := isBoundary_lineEnd source
  rw [String.toList_append] at hc ⊢
  rw [← paint_append_left more.toList captures (le_length_of_isBoundary hcut)]
  apply paint_append_of_newline captures (Nat.zero_le _) hl hc (isBoundary_append _ hcut)
  intro hpos _
  have hlast := newline_before_lineEnd hpos
  refine Or.inl ⟨⟨'\n', true⟩, ?_, rfl⟩
  rw [cells_append, List.getElem?_append_left (List.getElem?_eq_some_iff.mp hlast).1, hlast]

-- Where a span ends and another one starts, two bytes meet that do not belong together.
theorem not_joins_of_paint_append (hbc : b ≤ c) (hc : c ≤ bytes.length)
    (h : paint bytes ⟨a, c⟩ captures = xs ++ ys) (hx : Tiles bytes xs a b) :
    let ranked := Capture.innermostFirst captures
    ∀ p ∈ (painted bytes ⟨a, b⟩ ranked).getLast?, ∀ q ∈ (painted bytes ⟨b, c⟩ ranked).head?,
      p.joins q = false := by
  intro ranked p hp q hq
  have hsep := List.isChain_getLast_head_splitBy Painted.joins (painted bytes ⟨a, c⟩ ranked)
  rw [(splitBy_of_append hbc hc h hx).1] at hsep
  have hfirst : (painted bytes ⟨a, b⟩ ranked) ≠ [] := List.ne_nil_of_mem (List.mem_of_getLast? hp)
  have hlater : (painted bytes ⟨b, c⟩ ranked) ≠ [] := List.ne_nil_of_mem (List.mem_of_head? hq)
  obtain ⟨_, _, hj⟩ := (List.isChain_append.mp hsep).2.2
    _ (List.getLast_mem_getLast? (List.splitBy_ne_nil.mpr hfirst))
    _ (List.head_mem_head? (List.splitBy_ne_nil.mpr hlater))
  rwa [List.getLast_getLast_splitBy _ hfirst, List.head_head_splitBy _ hlater,
    List.getLast_of_mem_getLast? hp, List.head_of_mem_head? hq] at hj

-- Without captures only newlines keep spans apart.
theorem besideNewline_of_paint_nil (hab : a < b) (hbc : b < c) (hc : c ≤ bytes.length)
    (h : paint bytes ⟨a, c⟩ [] = xs ++ ys) (hx : Tiles bytes xs a b) : BesideNewline bytes b := by
  have hmeet := not_joins_of_paint_append (Nat.le_of_lt hbc) hc h hx
  rw [Capture.innermostFirst_nil] at hmeet
  have hfirst : (painted bytes ⟨b, c⟩ []).head? = _ := congrArg List.head? (painted_eq_cons hbc hc)
  have hj := hmeet _ (getLast?_painted hab (hbc.le.trans hc)) _ hfirst
  simp only [Painted.joins, Bool.not_eq_false', Bool.and_eq_true, Bool.or_eq_true,
    Painted.isNewline_iff] at hj
  obtain ⟨-, (hne | hn) | hn⟩ := hj
  · simp [ownerAt] at hne
  · exact Or.inl ⟨_, List.getElem?_eq_getElem _, hn⟩
  · exact Or.inr ⟨_, List.getElem?_eq_getElem _, hn⟩

-- A text that goes on is painted anew from where one of its spans starts.
theorem paint_nil_of_append {cs : List Char} (more : List Char)
    (h : paint (cells cs) ⟨0, c⟩ [] = xs ++ ys) (hx : Tiles (cells cs) xs 0 b)
    (hb : b < c ∨ b = 0) (hc : c ≤ (cells cs).length) {size : Nat} (hcs : c ≤ size)
    (hsize : size ≤ (cells (cs ++ more)).length) :
    paint (cells (cs ++ more)) ⟨0, size⟩ [] =
      xs ++ paint (cells (cs ++ more)) ⟨b, size⟩ [] := by
  have hbc : b ≤ c := by omega
  obtain ⟨hfirst, -⟩ := paint_of_append hbc hc h hx
  have hstop := isBoundary_append more (hx.isBoundary_stop (isBoundary_zero cs))
  rw [← hfirst, ← paint_append_left more [] (hbc.trans hc)]
  apply paint_append_of_newline [] (Nat.zero_le b) (hbc.trans hcs) hsize hstop
  intro hpos _
  have hlt : b < c := by omega
  have hbeside := besideNewline_of_paint_nil hpos hlt hc h hx
  rw [BesideNewline, cells_append, List.getElem?_append_left (by omega),
    List.getElem?_append_left (by omega)]
  exact hbeside

variable {source : String}

theorem isLineRun_of_mem_paint {span : Span}
    (h : span ∈ paint (cells source.toList) ⟨0, source.utf8ByteSize⟩ captures) :
    IsLineRun (slice (cells source.toList) span.start span.stop) := by
  have hsize := utf8ByteSize_eq source
  have htiles := tiles_paint captures (Nat.zero_le _) (isBoundary_utf8ByteSize source)
  obtain ⟨hstart, hstop⟩ := htiles.isBoundary_of_mem (isBoundary_zero _) h
  obtain ⟨-, hlt, -⟩ := htiles.bounds_of_mem h
  rcases lined_paint captures (Nat.le_of_eq hsize) span h with ⟨hn, -⟩ | hfree
  · exact Or.inl hn
  · refine Or.inr ⟨fun hempty => ?_, hfree⟩
    have hslice := utf8ByteSize_slice (Nat.le_of_lt hlt) hstart hstop
    rw [hempty, String.utf8ByteSize_empty] at hslice
    omega

-- The spans of a text without captures are its line runs.
theorem map_slice_paint_nil (source : String) :
    (paint (cells source.toList) ⟨0, source.utf8ByteSize⟩ []).map
        (fun span => slice (cells source.toList) span.start span.stop) = lineRuns source := by
  have hsize := utf8ByteSize_eq source
  have htiles := tiles_paint [] (Nat.zero_le _) (isBoundary_utf8ByteSize source)
  have hruns : ∀ span ∈ paint (cells source.toList) ⟨0, source.utf8ByteSize⟩ [],
      IsLineRun (slice (cells source.toList) span.start span.stop) :=
    fun span hm => isLineRun_of_mem_paint hm
  symm
  apply lineRuns_eq
  · rw [htiles.join_slices, slice_zero_utf8ByteSize]
  · rwa [List.forall_mem_map]
  · rw [List.isChain_map, List.isChain_iff_forall_rel_of_append_cons_cons]
    intro first next front back he
    have hfirst := hruns first (by simp [he])
    have hnext := hruns next (by simp [he])
    rw [List.append_cons] at he
    rw [he] at htiles
    obtain ⟨b, hfront, hback⟩ := htiles.exists_of_append
    obtain ⟨m, -, hs, hlt, -, rfl⟩ := hfront.exists_of_append
    obtain ⟨hs', hlt', -, hrest⟩ := hback
    have hborder := besideNewline_of_paint_nil (by omega)
      (Nat.lt_of_lt_of_le hlt' hrest.le) (Nat.le_of_eq hsize) he hfront
    rcases hborder with ⟨cell, hcell, hn⟩ | ⟨cell, hcell, hn⟩
    · exact Or.inl (hfirst.eq_newline (newline_mem_slice (by omega) (by omega) hcell hn))
    · exact Or.inr (hnext.eq_newline (newline_mem_slice (by omega) (by omega) hcell hn))

end Segment

end SyntaxStream
