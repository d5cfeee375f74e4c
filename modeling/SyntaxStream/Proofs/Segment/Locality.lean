import SyntaxStream.Proofs.Segment.Newline

namespace SyntaxStream

namespace Capture

def overlaps (c : Capture) (w : Window) : Bool := max c.start w.start < min c.stop w.stop

theorem overlaps_of_covers {c : Capture} {w : Window} {offset : Nat} (h : c.covers offset)
    (hs : w.start ≤ offset) (he : offset < w.stop) : c.overlaps w := by
  simp only [covers, overlaps, Bool.and_eq_true, decide_eq_true_eq] at h ⊢
  omega

-- A selection of captures that is enough to paint a window: those that overlap it are all there,
-- each as often as before, and nothing has changed its place among the others.
structure EnoughFor (w : Window) (captures kept : List Capture) : Prop where
  sublist : kept.Sublist captures
  overlapping : (captures.filter (·.overlaps w)).Sublist kept

variable {w : Window} {captures kept : List Capture}

theorem enoughFor_filter (w : Window) (captures : List Capture) :
    EnoughFor w captures (captures.filter (·.overlaps w)) :=
  ⟨List.filter_sublist, List.Sublist.refl _⟩

theorem EnoughFor.filter_covers (h : EnoughFor w captures kept) {offset : Nat}
    (hs : w.start ≤ offset) (he : offset < w.stop) :
    kept.filter (·.covers offset) = captures.filter (·.covers offset) := by
  apply (h.sublist.filter _).antisymm
  have hcovering := h.overlapping.filter (·.covers offset)
  rwa [List.filter_filter, List.filter_congr fun c _ => ?_] at hcovering
  cases hc : c.covers offset with
  | false => rfl
  | true => rw [overlaps_of_covers hc hs he, Bool.and_self]

end Capture

namespace Segment

open Text Capture

variable {cs : List Char} {bytes : List Cell} {captures kept : List Capture} {spans : List Span}
  {a b c : Nat}

theorem ownerAt_of_enoughFor {w : Window} (h : EnoughFor w captures kept) {offset : Nat}
    (hs : w.start ≤ offset) (he : offset < w.stop) :
    ownerAt (innermostFirst kept) offset = ownerAt (innermostFirst captures) offset := by
  rw [ownerAt_innermostFirst, ownerAt_innermostFirst, h.filter_covers hs he]

-- The owners of the bytes do not depend on where a capture stands in the order of painting, only
-- on which ones are painted over it.
theorem paint_of_enoughFor (h : EnoughFor ⟨a, b⟩ captures kept) (hb : b ≤ bytes.length) :
    paint bytes ⟨a, b⟩ kept = paint bytes ⟨a, b⟩ captures := by
  rw [paint, paint, painted_congr (fun offset hs he => ownerAt_of_enoughFor h hs he) hb]

-- Whether one of the spans ends at an offset.
def CutAt (spans : List Span) (offset : Nat) : Prop :=
  ∃ span ∈ spans, span.stop = offset

theorem Tiles.exists_append_of_cutAt (h : Tiles bytes spans a c) (hcut : CutAt spans b) :
    ∃ xs ys, spans = xs ++ ys ∧ Tiles bytes xs a b := by
  obtain ⟨span, hm, rfl⟩ := hcut
  obtain ⟨before, after, rfl⟩ := List.append_of_mem hm
  rw [List.append_cons] at h ⊢
  obtain ⟨m, hbefore, -⟩ := h.exists_of_append
  obtain ⟨_, -, hlast⟩ := hbefore.exists_of_append
  exact ⟨before ++ [span], after, rfl, hlast.2.2.2 ▸ hbefore⟩

theorem Tiles.cutAt_stop (h : Tiles bytes spans a b) (hab : a < b) : CutAt spans b := by
  obtain ⟨span, hm, -, hlt⟩ := h.exists_mem_of_lt (Nat.le_sub_one_of_lt hab)
    (Nat.sub_one_lt_of_lt hab)
  have hle := (h.bounds_of_mem hm).2.2
  exact ⟨span, hm, by omega⟩

theorem paint_append_of_cutAt (hc : isBoundary bytes c) (hac : a ≤ c) (hbc : b ≤ c)
    (hcut : CutAt (paint bytes ⟨a, c⟩ captures) b) :
    paint bytes ⟨a, c⟩ captures = paint bytes ⟨a, b⟩ captures ++ paint bytes ⟨b, c⟩ captures := by
  obtain ⟨xs, ys, hspans, hxs⟩ := (tiles_paint captures hac hc).exists_append_of_cutAt hcut
  obtain ⟨hleft, hright⟩ := paint_of_append hbc (le_length_of_isBoundary hc) hspans hxs
  rw [hleft, hright, hspans]

theorem isBoundary_of_besideNewline (hb : 0 < b) (hlt : b < (cells cs).length)
    (h : BesideNewline (cells cs) b) : isBoundary (cells cs) b := by
  rw [isBoundary_of_lt hlt]
  rcases h with ⟨cell, hcell, hchar⟩ | ⟨cell, hcell, hchar⟩
  · have hpair := (List.isChain_iff_getElem.mp (isChain_cells cs)) (b - 1) (by omega)
    rw [List.getElem?_eq_getElem (by omega), Option.some.injEq] at hcell
    simp only [Nat.sub_add_cancel hb, hcell] at hpair
    exact hpair.resolve_right fun hne => hne hchar
  · rw [List.getElem?_eq_getElem hlt, Option.some.injEq] at hcell
    exact opens_of_newline (List.getElem_mem hlt) (hcell ▸ hchar)

-- Before and behind every newline there is a cut, whatever the captures.
theorem cutAt_paint_of_newline (captures : List Capture) (hab : a < b) (hbc : b < c)
    (hc : c ≤ (cells cs).length) (hn : BesideNewline (cells cs) b) :
    CutAt (paint (cells cs) ⟨a, c⟩ captures) b := by
  have hb := isBoundary_of_besideNewline (Nat.zero_lt_of_lt hab) (hbc.trans_le hc) hn
  obtain ⟨span, hm, hstop⟩ := (tiles_paint captures (Nat.le_of_lt hab) hb).cutAt_stop hab
  rw [paint_append_of_newline captures (Nat.le_of_lt hab) (Nat.le_of_lt hbc) hc hb fun _ _ => hn]
  exact ⟨span, List.mem_append_left _ hm, hstop⟩

-- A window can be painted in parts. Where one span of it ends and another starts it can be cut in
-- two, and each part needs no more captures than those that overlap it.
theorem paint_in_parts (source : String) (captures : List Capture) (a c : Nat)
    (hc : isBoundary (cells source.toList) c) :
    let bytes := cells source.toList
    let whole := paint bytes ⟨a, c⟩ captures
    (∀ b, a < b → b < c → CutAt whole b →
      ∀ left right, EnoughFor ⟨a, b⟩ captures left → EnoughFor ⟨b, c⟩ captures right →
        whole = paint bytes ⟨a, b⟩ left ++ paint bytes ⟨b, c⟩ right) ∧
    (∀ kept, EnoughFor ⟨a, c⟩ captures kept → paint bytes ⟨a, c⟩ kept = whole) ∧
    ∀ b, a < b → b < c → BesideNewline bytes b → CutAt whole b := by
  intro bytes whole
  have hlen := le_length_of_isBoundary hc
  refine ⟨fun b hab hbc hcut left right hleft hright => ?_, fun kept hkept => ?_,
    fun b hab hbc hn => ?_⟩
  · have hac := Nat.le_of_lt (hab.trans hbc)
    rw [paint_of_enoughFor hleft (Nat.le_of_lt hbc |>.trans hlen), paint_of_enoughFor hright hlen]
    exact paint_append_of_cutAt hc hac (Nat.le_of_lt hbc) hcut
  · exact paint_of_enoughFor hkept hlen
  · exact cutAt_paint_of_newline captures hab hbc hlen hn

-- A comment goes on behind the cut, and is clipped on both sides. Of the other captures each part
-- has those that lie in it.
theorem paint_in_parts_comment :
    let source := "fn /* é\n*/ x"
    let keyword : Capture := ⟨0, 2, 0, 12⟩
    let comment : Capture := ⟨3, 11, 1, 2⟩
    let name : Capture := ⟨12, 20, 2, 30⟩
    let bytes := cells source.toList
    isBoundary bytes 13 ∧ BesideNewline bytes 8 ∧
      EnoughFor ⟨0, 8⟩ [keyword, comment, name] [keyword, comment] ∧
      EnoughFor ⟨8, 13⟩ [keyword, comment, name] [comment, name] ∧
      paint bytes ⟨0, 13⟩ [keyword, comment, name] =
        paint bytes ⟨0, 8⟩ [keyword, comment] ++ paint bytes ⟨8, 13⟩ [comment, name] := by
  intro source keyword comment name bytes
  have hc : isBoundary bytes 13 := by decide +kernel
  have hn : BesideNewline bytes 8 := Or.inr ⟨⟨'\n', true⟩, by decide +kernel, rfl⟩
  have hleft : EnoughFor ⟨0, 8⟩ [keyword, comment, name] [keyword, comment] :=
    enoughFor_filter ⟨0, 8⟩ [keyword, comment, name]
  have hright : EnoughFor ⟨8, 13⟩ [keyword, comment, name] [comment, name] :=
    enoughFor_filter ⟨8, 13⟩ [keyword, comment, name]
  obtain ⟨hparts, -, hcuts⟩ := paint_in_parts source [keyword, comment, name] 0 13 hc
  have hcut := hcuts 8 (by decide) (by decide) hn
  exact ⟨hc, hn, hleft, hright, hparts 8 (by decide) (by decide) hcut _ _ hleft hright⟩

end Segment

end SyntaxStream
