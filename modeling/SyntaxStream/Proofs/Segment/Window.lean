import SyntaxStream.Tokenizer
import SyntaxStream.Proofs.Segment.Paint

namespace SyntaxStream

-- A parser with one tree, which has the given captures. A window is answered with those of them
-- that overlap it.
def SyntaxParser.ofCaptures (raw : List RawCapture) : SyntaxParser Unit where
  parse _ s := (.parsed [], s)
  captures w s := (raw.filter (·.overlaps w), s)

namespace Tokenizer

open Text Segment

variable {σ : Type} {parser : SyntaxParser σ} {t : Tokenizer} {language : Language}
  {source : String} {hasTree : Bool} {a b : Nat} {s : σ}

-- The spans of a whole text whose tree has the given captures.
def oneShot (t : Tokenizer) (language : Language) (source : String) (raw : List RawCapture) :
    List Span :=
  (t.segment (SyntaxParser.ofCaptures raw) language source true ⟨0, source.utf8ByteSize⟩ ()).1

theorem segment_of_le (h : b ≤ a) :
    t.segment parser language source hasTree ⟨a, b⟩ s = ([], s) := by
  have hw : (Window.clampTo ⟨a, b⟩ (cells source.toList).length).isEmpty = true := by
    rw [Window.isEmpty, decide_eq_true_eq, Window.clampTo]
    simp only
    omega
  simp only [segment, hw, if_true]

theorem clampTo_of_le {size : Nat} (hab : a ≤ b) (hb : b ≤ size) :
    Window.clampTo ⟨a, b⟩ size = ⟨a, b⟩ := by
  simp only [Window.clampTo, Window.mk.injEq]
  omega

theorem exists_paint (parser : SyntaxParser σ) (t : Tokenizer) (language : Language)
    (hasTree : Bool) (s : σ) (hab : a < b) (hb : b ≤ (cells source.toList).length) :
    ∃ captures, (t.segment parser language source hasTree ⟨a, b⟩ s).1 =
      paint (cells source.toList) ⟨a, b⟩ captures := by
  have hw : (Window.mk a b).isEmpty = false := by simpa [Window.isEmpty] using hab
  simp only [segment, clampTo_of_le (Nat.le_of_lt hab) hb, hw, Bool.false_eq_true, if_false]
  split
  · exact ⟨_, rfl⟩
  · exact ⟨_, rfl⟩

theorem tiles_segment (parser : SyntaxParser σ) (t : Tokenizer) (language : Language)
    (hasTree : Bool) (s : σ) (hab : a ≤ b) (hb : isBoundary (cells source.toList) b) :
    Tiles (cells source.toList) (t.segment parser language source hasTree ⟨a, b⟩ s).1 a b := by
  rcases Nat.eq_or_lt_of_le hab with rfl | hlt
  · rw [segment_of_le (Nat.le_refl a)]
    rfl
  · obtain ⟨captures, hp⟩ :=
      exists_paint parser t language hasTree s hlt (le_length_of_isBoundary hb)
    rw [hp]
    exact tiles_paint captures hab hb

theorem highlight_of_mem_segment {w : Window} {span : Span}
    (h : span ∈ (t.segment parser language source false w s).1) : span.highlight = none := by
  simp only [segment, Bool.and_false, Bool.false_eq_true, if_false] at h
  split at h
  · cases h
  · exact highlight_of_mem_paint_nil h

-- A window of a tree is painted with the captures of the whole tree.
theorem segment_eq_paint {raw : List RawCapture} (hs : t.supports language = true)
    (hg : language.hasGrammar = true) (hab : a < b) (hb : b ≤ (cells source.toList).length)
    (hr : (parser.captures ⟨a, b⟩ s).1 = raw.filter (·.overlaps ⟨a, b⟩)) :
    (t.segment parser language source true ⟨a, b⟩ s).1 =
      paint (cells source.toList) ⟨a, b⟩ (Capture.ofRawList raw) := by
  have hw : (Window.mk a b).isEmpty = false := by simpa [Window.isEmpty] using hab
  simp only [segment, clampTo_of_le (Nat.le_of_lt hab) hb, hw, hs, hg, Bool.and_self,
    Bool.false_eq_true, if_false, if_true]
  rw [hr, paint_filter_overlaps raw hb]

theorem oneShot_eq_paint (raw : List RawCapture) (hs : t.supports language = true)
    (hg : language.hasGrammar = true) (hne : source ≠ "") :
    t.oneShot language source raw =
      paint (cells source.toList) ⟨0, source.utf8ByteSize⟩ (Capture.ofRawList raw) := by
  exact segment_eq_paint hs hg (utf8ByteSize_pos hne) (Nat.le_of_eq (utf8ByteSize_eq source)) rfl

theorem tiles_oneShot (raw : List RawCapture) :
    Tiles (cells source.toList) (t.oneShot language source raw) 0 source.utf8ByteSize :=
  tiles_segment _ _ _ _ _ (Nat.zero_le _) (isBoundary_utf8ByteSize source)

-- The spans of a whole tree go on behind any number of them as the window there is painted.
theorem segment_of_prefix_oneShot {raw : List RawCapture} {kept : List Span}
    (hs : t.supports language = true) (hg : language.hasGrammar = true)
    (hk : Tiles (cells source.toList) kept 0 a) (hp : kept <+: t.oneShot language source raw)
    (ha : a < source.utf8ByteSize)
    (hr : (parser.captures ⟨a, source.utf8ByteSize⟩ s).1 =
      raw.filter (·.overlaps ⟨a, source.utf8ByteSize⟩)) :
    kept ++ (t.segment parser language source true ⟨a, source.utf8ByteSize⟩ s).1 =
      t.oneShot language source raw := by
  have hsize := utf8ByteSize_eq source
  have hne : source ≠ "" := by
    rintro rfl
    exact absurd ha (Nat.not_lt_zero a)
  obtain ⟨rest, hrest⟩ := hp
  rw [oneShot_eq_paint raw hs hg hne] at hrest ⊢
  obtain ⟨-, hlater⟩ := paint_of_append (Nat.le_of_lt ha) (Nat.le_of_eq hsize) hrest.symm hk
  rw [segment_eq_paint hs hg ha (Nat.le_of_eq hsize) hr, hlater, hrest]

end Tokenizer

end SyntaxStream
