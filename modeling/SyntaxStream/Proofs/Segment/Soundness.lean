import SyntaxStream.Proofs.Segment.Bounds
import SyntaxStream.Proofs.Segment.Plain
import SyntaxStream.Proofs.Theme.Ancestors

namespace SyntaxStream

open Text

namespace Segment

-- What the spans of a window are, whatever the captures. The spans cover the window without a gap
-- and without cutting a character; a newline stands alone; and a highlight comes from a capture
-- that reaches into its span.
structure Sound (bytes : List Cell) (raw : List RawCapture) (w : Window) (spans : List Span) :
    Prop where
  empty : w.isEmpty = true → spans = []
  tiles : w.isEmpty = false → spans ≠ [] ∧ Tiles bytes spans w.start w.stop
  boundary : ∀ span ∈ spans, isBoundary bytes span.start ∧ isBoundary bytes span.stop
  newline : ∀ offset, w.start ≤ offset → offset < w.stop → newlineAt bytes offset = true →
    ⟨offset, offset + 1, none⟩ ∈ spans
  alone : ∀ span ∈ spans, ∀ offset, span.start ≤ offset → offset < span.stop →
    newlineAt bytes offset = true → span = ⟨offset, offset + 1, none⟩
  highlight : ∀ span ∈ spans, ∀ n, span.highlight = some n → n < Scope.names.length ∧
    ∃ c ∈ raw, Scope.number? c.name = some n ∧ c.overlaps ⟨span.start, span.stop⟩ = true

variable {cs : List Char} {raw : List RawCapture} {spans : List Span} {a b : Nat}

theorem exists_cell_of_newlineAt {bytes : List Cell} {offset : Nat}
    (h : newlineAt bytes offset = true) :
    ∃ cell, bytes[offset]? = some cell ∧ cell.char = '\n' := by
  obtain ⟨cell, hcell, hchar⟩ := (Option.any_eq_true ..).mp h
  exact ⟨cell, hcell, beq_iff_eq.mp hchar⟩

-- A span with a newline in it is that newline.
theorem eq_of_lined {span : Span} (h : Lined (cells cs) span) (hlt : span.start < span.stop)
    (hstart : isBoundary (cells cs) span.start) (hstop : isBoundary (cells cs) span.stop)
    {offset : Nat} (hs : span.start ≤ offset) (he : offset < span.stop)
    (hn : newlineAt (cells cs) offset = true) : span = ⟨offset, offset + 1, none⟩ := by
  obtain ⟨cell, hcell, hchar⟩ := exists_cell_of_newlineAt hn
  rcases h with ⟨hslice, hnone⟩ | hfree
  · have hsize := utf8ByteSize_slice (Nat.le_of_lt hlt) hstart hstop
    have hone : ("\n").utf8ByteSize = 1 := rfl
    rw [hslice, hone] at hsize
    obtain ⟨start, stop, highlight⟩ := span
    simp only at hs he hsize hnone
    rw [Span.mk.injEq]
    exact ⟨by omega, by omega, hnone⟩
  · exact absurd (newline_mem_slice hs he hcell hchar) hfree

theorem exists_capture_of_highlight {bytes : List Cell} {w : Window} {span : Span} {n : Nat}
    (hm : span ∈ paint bytes w (Capture.ofRawList raw)) (hn : span.highlight = some n) :
    ∃ c ∈ raw, Scope.number? c.name = some n ∧ c.covers span.start = true := by
  rcases highlight_of_mem_paint hm with hnone | howner
  · cases hnone.symm.trans hn
  · rw [hn, ownerAt_eq_owner?, highlight_of_owner?, eq_comm, Option.bind_eq_some_iff] at howner
    obtain ⟨c, hc, hnumber⟩ := howner
    obtain ⟨hraw, -, hcovers⟩ := RawCapture.mem_of_owner? hc
    exact ⟨c, hraw, hnumber, hcovers⟩

theorem sound_paint (raw : List RawCapture) (hab : a < b) (ha : isBoundary (cells cs) a)
    (hb : isBoundary (cells cs) b) :
    Sound (cells cs) raw ⟨a, b⟩ (paint (cells cs) ⟨a, b⟩ (Capture.ofRawList raw)) := by
  have htiles := tiles_paint (Capture.ofRawList raw) (Nat.le_of_lt hab) hb
  have hlined := lined_paint (a := a) (Capture.ofRawList raw) (le_length_of_isBoundary hb)
  have halone : ∀ span ∈ paint (cells cs) ⟨a, b⟩ (Capture.ofRawList raw), ∀ offset,
      span.start ≤ offset → offset < span.stop → newlineAt (cells cs) offset = true →
      span = ⟨offset, offset + 1, none⟩ := by
    intro span hm offset hs he hn
    obtain ⟨hstart, hstop⟩ := htiles.isBoundary_of_mem ha hm
    exact eq_of_lined (hlined span hm) (htiles.bounds_of_mem hm).2.1 hstart hstop hs he hn
  constructor
  case empty =>
    intro hempty
    simp only [Window.isEmpty, decide_eq_true_eq] at hempty
    omega
  case tiles =>
    refine fun _ => ⟨fun hnil => ?_, htiles⟩
    rw [hnil] at htiles
    exact Nat.ne_of_lt hab htiles
  case boundary => exact fun span hm => htiles.isBoundary_of_mem ha hm
  case newline =>
    intro offset hs he hn
    obtain ⟨span, hm, hle, hlt⟩ := htiles.exists_mem_of_lt hs he
    exact halone span hm offset hle hlt hn ▸ hm
  case alone => exact halone
  case highlight =>
    intro span hm n hn
    obtain ⟨c, hc, hnumber, hcovers⟩ := exists_capture_of_highlight hm hn
    have hlt := (htiles.bounds_of_mem hm).2.1
    exact ⟨Scope.number?_lt hnumber, c, hc, hnumber,
      RawCapture.overlaps_of_covers hcovers (Nat.le_refl _) hlt⟩

theorem sound_nil (bytes : List Cell) (raw : List RawCapture) {w : Window}
    (h : w.isEmpty = true) : Sound bytes raw w [] := by
  simp only [Window.isEmpty, decide_eq_true_eq] at h
  constructor
  case empty => exact fun _ => rfl
  case tiles => simp [Window.isEmpty, h]
  case newline =>
    intro offset hs he
    omega
  all_goals simp

end Segment

namespace Tokenizer

open Segment

variable {σ : Type}

theorem segment_clampTo (parser : SyntaxParser σ) (t : Tokenizer) (language : Language)
    (source : String) (hasTree : Bool) (window : Window) (s : σ) :
    t.segment parser language source hasTree (window.clampTo source.utf8ByteSize) s =
      t.segment parser language source hasTree window s := by
  have hclamp : (window.clampTo source.utf8ByteSize).clampTo (cells source.toList).length =
      window.clampTo (cells source.toList).length := by
    simp [Window.clampTo, utf8ByteSize_eq]
  simp only [segment, hclamp]

-- Captures can be anything: their names unknown, their ranges empty, turned around or past the
-- end, and their ends within characters. The spans are sound nevertheless, and to find them
-- nothing is read or written out of range.
theorem segment_sound_of_any_captures (parser : SyntaxParser σ) (t : Tokenizer)
    (language : Language) (source : String) (hasTree : Bool) (window : Window) (s : σ)
    (hstart : isBoundary (cells source.toList) (window.clampTo source.utf8ByteSize).start)
    (hstop : isBoundary (cells source.toList) (window.clampTo source.utf8ByteSize).stop) :
    let w := window.clampTo source.utf8ByteSize
    Sound (cells source.toList) (t.captured parser language hasTree w s) w
        (t.segment parser language source hasTree window s).1 ∧
      t.segment? parser language source hasTree window s =
        some (t.segment parser language source hasTree window s) := by
  intro w
  refine ⟨?_, segment?_eq parser t language source hasTree window s⟩
  rw [← segment_clampTo]
  by_cases hw : w.isEmpty = true
  · have hle : w.stop ≤ w.start := by simpa [Window.isEmpty] using hw
    rw [segment_of_le hle]
    exact sound_nil _ _ hw
  · have hlt : w.start < w.stop := by simpa [Window.isEmpty] using hw
    rw [segment_eq_paint_captured parser t language source hasTree s hlt (Nat.min_le_right _ _)]
    exact sound_paint _ hlt hstart hstop

-- One capture ends within the first character and others start there, one is turned around, and
-- some go on past the end. The window is clamped, and the newline in it stands alone.
theorem segment_sound_of_any_captures_rust :
    let source := "é\nb"
    let raw : List RawCapture := [⟨0, 4, 0, "embedded"⟩, ⟨0, 1, 0, "keyword"⟩, ⟨3, 2, 0, "string"⟩,
      ⟨1, 9, 1, "function.call"⟩, ⟨1, 9, 1, "function.call"⟩, ⟨4, 4, 0, "comment"⟩]
    let parser : SyntaxParser Unit := ⟨fun _ s => (.parsed [], s), fun _ s => (raw, s)⟩
    let t : Tokenizer := ⟨[.rust], []⟩
    let spans := (t.segment parser .rust source true ⟨0, 9⟩ ()).1
    isBoundary (cells source.toList) (Window.clampTo ⟨0, 9⟩ source.utf8ByteSize).start ∧
      isBoundary (cells source.toList) (Window.clampTo ⟨0, 9⟩ source.utf8ByteSize).stop ∧
      Sound (cells source.toList) raw ⟨0, 4⟩ spans ∧ ⟨2, 3, none⟩ ∈ spans := by
  intro source raw parser t spans
  have hstart : isBoundary (cells source.toList)
      (Window.clampTo ⟨0, 9⟩ source.utf8ByteSize).start := by decide +kernel
  have hstop : isBoundary (cells source.toList)
      (Window.clampTo ⟨0, 9⟩ source.utf8ByteSize).stop := by decide +kernel
  have hsound : Sound (cells source.toList) raw ⟨0, 4⟩ spans :=
    (segment_sound_of_any_captures parser t .rust source true ⟨0, 9⟩ () hstart hstop).1
  exact ⟨hstart, hstop, hsound, hsound.newline 2 (by decide) (by decide) (by decide +kernel)⟩

end Tokenizer

end SyntaxStream
