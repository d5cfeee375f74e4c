import SyntaxStream.Proofs.Capture.Innermost
import SyntaxStream.Proofs.Segment.Newline
import SyntaxStream.Proofs.Segment.Window
import Mathlib.Data.Nat.Find

namespace SyntaxStream

open Text

-- The pieces of a window that is cut at some of the places strictly within it.
def Window.cutAt (cut : Nat → Bool) (w : Window) : List Window :=
  let places := (List.range' (w.start + 1) (w.stop - w.start - 1)).filter cut
  List.zipWith Window.mk (w.start :: places) (places ++ [w.stop])

namespace Window

variable {cut : Nat → Bool} {a b c : Nat}

theorem filter_range'_of_none {n : Nat}
    (h : ∀ place, a ≤ place → place < a + n → cut place = false) :
    (List.range' a n).filter cut = [] := by
  rw [List.filter_eq_nil_iff]
  intro place hm
  obtain ⟨hs, he⟩ := List.mem_range'_1.mp hm
  simp [h place hs he]

theorem cutAt_of_none (hab : a < b) (h : ∀ place, a < place → place < b → cut place = false) :
    cutAt cut ⟨a, b⟩ = [⟨a, b⟩] := by
  rw [cutAt, filter_range'_of_none]
  · rfl
  · intro place hs he
    simp only at hs he
    exact h place (by omega) (by omega)

-- The first piece ends at the first cut.
theorem cutAt_eq_cons (hab : a < b) (hbc : b < c) (hcut : cut b = true)
    (h : ∀ place, a < place → place < b → cut place = false) :
    cutAt cut ⟨a, c⟩ = ⟨a, b⟩ :: cutAt cut ⟨b, c⟩ := by
  have hsplit : List.range' (a + 1) (c - a - 1) =
      List.range' (a + 1) (b - a - 1) ++ b :: List.range' (b + 1) (c - b - 1) := by
    have hlen : c - a - 1 = (b - a - 1) + ((c - b - 1) + 1) := by omega
    have hnext : a + 1 + (b - a - 1) = b := by omega
    rw [hlen, ← List.range'_append_1, hnext, List.range'_succ]
  have hnone : (List.range' (a + 1) (b - a - 1)).filter cut = [] :=
    filter_range'_of_none fun place hs he => h place (by omega) (by omega)
  simp only [cutAt, hsplit, List.filter_append, hnone, List.filter_cons_of_pos hcut,
    List.nil_append, List.cons_append, List.zipWith_cons_cons]

-- A window is not cut at all, or it is cut for the first time somewhere.
theorem unbroken_or_exists_first (cut : Nat → Bool) (a b : Nat) :
    (∀ place, a < place → place < b → cut place = false) ∨
      ∃ m, a < m ∧ m < b ∧ cut m = true ∧ ∀ place, a < place → place < m → cut place = false := by
  by_cases h : ∃ place, a < place ∧ place < b ∧ cut place = true
  · obtain ⟨ha, hb, hm⟩ := Nat.find_spec h
    refine Or.inr ⟨Nat.find h, ha, hb, hm, fun place hs he => ?_⟩
    have hmin := Nat.find_min h he
    simp only [not_and, Bool.not_eq_true] at hmin
    exact hmin hs (he.trans hb)
  · simp only [not_exists, not_and, Bool.not_eq_true] at h
    exact Or.inl h

-- No piece is empty, and none is cut again.
theorem unbroken_of_mem_cutAt (hab : a < b) {piece : Window} (hm : piece ∈ cutAt cut ⟨a, b⟩) :
    a ≤ piece.start ∧ piece.start < piece.stop ∧ piece.stop ≤ b ∧
      ∀ place, piece.start < place → place < piece.stop → cut place = false := by
  induction hn : b - a using Nat.strong_induction_on generalizing a with
  | _ n ih =>
    rcases unbroken_or_exists_first cut a b with hnone | ⟨m, ham, hmb, hcut, hfirst⟩
    · rw [cutAt_of_none hab hnone, List.mem_singleton] at hm
      subst hm
      exact ⟨Nat.le_refl a, hab, Nat.le_refl b, hnone⟩
    · rw [cutAt_eq_cons ham hmb hcut hfirst] at hm
      rcases List.mem_cons.mp hm with rfl | hm
      · exact ⟨Nat.le_refl a, ham, Nat.le_of_lt hmb, hfirst⟩
      · obtain ⟨hs, hlt, he, hunbroken⟩ := ih (b - m) (by omega) hmb hm rfl
        exact ⟨by omega, hlt, he, hunbroken⟩

end Window

-- The ends of a capture do not stand within a character.
def RawCapture.IsAligned (bytes : List Cell) (c : RawCapture) : Prop :=
  (c.start < bytes.length → isBoundary bytes c.start) ∧
    (c.stop < bytes.length → isBoundary bytes c.stop)

instance (bytes : List Cell) (c : RawCapture) : Decidable (c.IsAligned bytes) :=
  inferInstanceAs (Decidable (_ ∧ _))

namespace Segment

variable {bytes : List Cell} {cs : List Char} {raw raw' : List RawCapture}
  {captures : List Capture} {a b c : Nat}

def newlineAt (bytes : List Cell) (offset : Nat) : Bool := bytes[offset]?.any (·.char == '\n')

-- Whether two neighbours are kept apart: their owners are not of one range, or one is a newline.
def changesAt (bytes : List Cell) (raw : List RawCapture) (place : Nat) : Bool :=
  (RawCapture.owner? raw (place - 1)).map (·.window) != (RawCapture.owner? raw place).map (·.window)
    || newlineAt bytes (place - 1) || newlineAt bytes place

-- A byte is highlighted as its owner says; a newline is not highlighted.
def highlightAt (bytes : List Cell) (raw : List RawCapture) (offset : Nat) : Option Nat :=
  if newlineAt bytes offset then none
  else (RawCapture.owner? raw offset).bind fun c => Scope.number? c.name

-- A window cut wherever two neighbours are kept apart.
def innermostSpans (bytes : List Cell) (raw : List RawCapture) (w : Window) : List Span :=
  (w.cutAt (changesAt bytes raw)).map fun piece =>
    ⟨piece.start, piece.stop, highlightAt bytes raw piece.start⟩

theorem isChain_painted (ranked : List Capture) (hb : b ≤ bytes.length)
    (h : ∀ i (_ : a ≤ i) (_ : i + 1 < b), (Painted.mk i bytes[i] (ownerAt ranked i)).joins
      ⟨i + 1, bytes[i + 1], ownerAt ranked (i + 1)⟩ = true) :
    (painted bytes ⟨a, b⟩ ranked).IsChain fun p q => p.joins q := by
  induction hn : b - a generalizing a with
  | zero =>
    rw [painted_of_le (Nat.sub_eq_zero_iff_le.mp hn)]
    exact .nil
  | succ n ih =>
    have hrest := ih (a := a + 1) (fun i hs he => h i (by omega) he) (by omega)
    rw [painted_eq_cons (by omega) hb]
    refine List.isChain_cons.mpr ⟨fun q hq => ?_, hrest⟩
    by_cases hlast : a + 1 < b
    · rw [painted_eq_cons hlast hb, List.head?_cons, Option.mem_some_iff] at hq
      rw [← hq]
      exact h a (Nat.le_refl a) hlast
    · rw [painted_of_le (Nat.le_of_not_lt hlast)] at hq
      cases hq

theorem newlineAt_eq (h : a < bytes.length) : newlineAt bytes a = (bytes[a].char == '\n') := by
  simp [newlineAt, h]

-- A window in which all neighbours belong together is one span.
theorem paint_of_joined (captures : List Capture) (hab : a < b) (hb : b ≤ bytes.length)
    (h : ∀ i (_ : a ≤ i) (_ : i + 1 < b),
      (Painted.mk i bytes[i] (ownerAt (Capture.innermostFirst captures) i)).joins
        ⟨i + 1, bytes[i + 1], ownerAt (Capture.innermostFirst captures) (i + 1)⟩ = true) :
    paint bytes ⟨a, b⟩ captures =
      [⟨a, b, if newlineAt bytes a then none
        else (ownerAt (Capture.innermostFirst captures) a).map (·.highlight)⟩] := by
  have hchain := isChain_painted (Capture.innermostFirst captures) hb h
  have hlen : (painted bytes ⟨a + 1, b⟩ (Capture.innermostFirst captures)).length = b - (a + 1) :=
    length_painted hb
  have hstop : a + (b - (a + 1)) + 1 = b := by omega
  rw [painted_eq_cons hab hb] at hchain
  rw [paint, painted_eq_cons hab hb, List.splitBy_of_isChain (List.cons_ne_nil _ _) hchain,
    newlineAt_eq (hab.trans_le hb)]
  simp only [List.filterMap_cons, List.filterMap_nil, spanOf?, hlen, hstop]
  rfl

-- Where the owner changes or a newline stands a character opens.
theorem opens_of_changesAt (haligned : ∀ c ∈ raw, c.IsAligned (cells cs))
    (ha : a + 1 < (cells cs).length) (h : changesAt (cells cs) raw (a + 1) = true) :
    (cells cs)[a + 1].opens = true := by
  simp only [changesAt, Nat.add_sub_cancel, Bool.or_eq_true, bne_iff_ne, newlineAt_eq ha,
    newlineAt_eq (Nat.lt_of_succ_lt ha), beq_iff_eq] at h
  rcases h with (hne | hn) | hn
  · by_contra hclosed
    have hinside : ¬ isBoundary (cells cs) (a + 1) = true := by
      rwa [isBoundary_of_lt ha]
    refine hne (congrArg _ (RawCapture.owner?_succ fun c hc => ⟨fun hs => ?_, fun he => ?_⟩).symm)
    · exact hinside (hs ▸ (haligned c hc).1 (hs ▸ ha))
    · exact hinside (he ▸ (haligned c hc).2 (he ▸ ha))
  · exact ((isChain_cells cs).getElem a ha).resolve_right fun hne => hne hn
  · exact opens_of_newline (List.getElem_mem ha) hn

theorem map_window_owner? (raw : List RawCapture) (i : Nat) :
    ((RawCapture.owner? raw i).bind Capture.ofRaw?).map (fun d => Window.mk d.start d.stop) =
      (RawCapture.owner? raw i).map (·.window) := by
  cases hc : RawCapture.owner? raw i with
  | none => rfl
  | some c =>
    have hsome := (RawCapture.mem_of_owner? hc).2.1
    rw [← Capture.isSome_ofRaw?] at hsome
    obtain ⟨d, hd⟩ := Option.isSome_iff_exists.mp hsome
    obtain ⟨hs, he, -⟩ := Capture.ofRaw?_eq_some hd
    simp [hd, hs, he, RawCapture.window]

-- What two bytes are painted with differs just where the ranges of their owners do.
theorem owner?_bne (raw : List RawCapture) (i j : Nat) :
    ((RawCapture.owner? raw i).bind Capture.ofRaw? !=
        (RawCapture.owner? raw j).bind Capture.ofRaw?) =
      ((RawCapture.owner? raw i).map (·.window) != (RawCapture.owner? raw j).map (·.window)) := by
  rw [Bool.eq_iff_iff, bne_iff_ne, bne_iff_ne, not_iff_not]
  constructor
  · intro h
    rw [← map_window_owner?, ← map_window_owner?, h]
  · intro h
    rw [RawCapture.owner?_eq_of_window_eq h]

-- Two neighbours belong together unless something changes between them.
theorem joins_eq_not_changesAt (haligned : ∀ c ∈ raw, c.IsAligned (cells cs))
    (ha : a + 1 < (cells cs).length) :
    let ranked := Capture.innermostFirst (Capture.ofRawList raw)
    (Painted.mk a (cells cs)[a] (ownerAt ranked a)).joins
      ⟨a + 1, (cells cs)[a + 1], ownerAt ranked (a + 1)⟩ = !changesAt (cells cs) raw (a + 1) := by
  have hopens := opens_of_changesAt haligned ha
  have hchanges : changesAt (cells cs) raw (a + 1) =
    ((RawCapture.owner? raw a).bind Capture.ofRaw? !=
        (RawCapture.owner? raw (a + 1)).bind Capture.ofRaw?
      || (cells cs)[a].char == '\n' || (cells cs)[a + 1].char == '\n') := by
    rw [changesAt, Nat.add_sub_cancel, owner?_bne, newlineAt_eq ha,
      newlineAt_eq (Nat.lt_of_succ_lt ha)]
  simp only [Painted.joins, Painted.isNewline, ownerAt_eq_owner?, ← hchanges]
  cases hc : changesAt (cells cs) raw (a + 1) with
  | false => simp
  | true => simp [hopens hc]

theorem highlight_of_owner? (raw : List RawCapture) (i : Nat) :
    ((RawCapture.owner? raw i).bind Capture.ofRaw?).map (·.highlight) =
      (RawCapture.owner? raw i).bind fun c => Scope.number? c.name := by
  cases hc : RawCapture.owner? raw i with
  | none => rfl
  | some c =>
    have hhl := (RawCapture.mem_of_owner? hc).2.1
    simp only [RawCapture.highlights, Bool.and_eq_true, decide_eq_true_eq] at hhl
    simp [Capture.ofRaw?, hhl.2, Option.map_map, Function.comp_def]

-- A window in which nothing changes is one span.
theorem paint_of_unbroken (haligned : ∀ c ∈ raw, c.IsAligned (cells cs)) (hab : a < b)
    (hb : b ≤ (cells cs).length)
    (h : ∀ place, a < place → place < b → changesAt (cells cs) raw place = false) :
    paint (cells cs) ⟨a, b⟩ (Capture.ofRawList raw) =
      [⟨a, b, highlightAt (cells cs) raw a⟩] := by
  rw [paint_of_joined _ hab hb, ownerAt_eq_owner?, highlight_of_owner?]
  · rfl
  · intro i hs he
    rw [joins_eq_not_changesAt haligned (by omega), h (i + 1) (by omega) he, Bool.not_false]

-- Where something changes the window falls apart.
theorem paint_of_changesAt (haligned : ∀ c ∈ raw, c.IsAligned (cells cs)) (hab : a < b)
    (hbc : b < c) (hc : c ≤ (cells cs).length) (h : changesAt (cells cs) raw b = true) :
    paint (cells cs) ⟨a, c⟩ (Capture.ofRawList raw) =
      paint (cells cs) ⟨a, b⟩ (Capture.ofRawList raw) ++
        paint (cells cs) ⟨b, c⟩ (Capture.ofRawList raw) := by
  obtain ⟨i, rfl⟩ : ∃ i, b = i + 1 := ⟨b - 1, by omega⟩
  apply paint_append_of_not_joins hab hbc hc
  have hj := joins_eq_not_changesAt haligned (a := i) (by omega)
  rwa [h] at hj

theorem paint_eq_innermostSpans (haligned : ∀ c ∈ raw, c.IsAligned (cells cs)) (hab : a < b)
    (hb : b ≤ (cells cs).length) :
    paint (cells cs) ⟨a, b⟩ (Capture.ofRawList raw) = innermostSpans (cells cs) raw ⟨a, b⟩ := by
  induction hn : b - a using Nat.strong_induction_on generalizing a with
  | _ n ih =>
    rcases Window.unbroken_or_exists_first (changesAt (cells cs) raw) a b with
      hnone | ⟨m, ham, hmb, hcut, hfirst⟩
    · rw [paint_of_unbroken haligned hab hb hnone, innermostSpans, Window.cutAt_of_none hab hnone]
      rfl
    · rw [paint_of_changesAt haligned ham hmb hb hcut,
        paint_of_unbroken haligned ham (hmb.le.trans hb) hfirst, ih (b - m) (by omega) hmb rfl,
        innermostSpans, innermostSpans, Window.cutAt_eq_cons ham hmb hcut hfirst]
      rfl

theorem highlightAt_of_not_changesAt (h : changesAt bytes raw (a + 1) = false) :
    highlightAt bytes raw (a + 1) = highlightAt bytes raw a := by
  simp only [changesAt, Nat.add_sub_cancel, Bool.or_eq_false_iff, bne_eq_false_iff_eq] at h
  obtain ⟨⟨hw, hn⟩, hn'⟩ := h
  rw [highlightAt, highlightAt, hn, hn', RawCapture.owner?_eq_of_window_eq hw]

-- A span has the highlight of each of its bytes.
theorem highlight_of_mem_innermostSpans (hab : a < b) {span : Span}
    (hm : span ∈ innermostSpans bytes raw ⟨a, b⟩) {offset : Nat} (hs : span.start ≤ offset)
    (he : offset < span.stop) : span.highlight = highlightAt bytes raw offset := by
  obtain ⟨piece, hpiece, rfl⟩ := List.mem_map.mp hm
  obtain ⟨-, -, -, hunbroken⟩ := Window.unbroken_of_mem_cutAt hab hpiece
  simp only at hs he ⊢
  induction offset, hs using Nat.le_induction with
  | base => rfl
  | succ offset hs ih =>
    rw [ih (by omega), highlightAt_of_not_changesAt (hunbroken (offset + 1) (by omega) he)]

-- Only the captures of the window count, and of them only the order within one node and pattern.
theorem paint_of_sameNodes (h : RawCapture.SameNodes ⟨a, b⟩ raw raw') (hb : b ≤ bytes.length) :
    paint bytes ⟨a, b⟩ (Capture.ofRawList raw) = paint bytes ⟨a, b⟩ (Capture.ofRawList raw') := by
  rw [paint, paint, painted_congr (fun offset hs he => ?_) hb]
  rw [ownerAt_eq_owner?, ownerAt_eq_owner?, h.owner?_eq hs he]

end Segment

namespace Tokenizer

open Segment

variable {σ τ : Type}

-- The captures a window is segmented with: the answer of the tree, if there is one to ask.
def captured (parser : SyntaxParser σ) (t : Tokenizer) (language : Language) (hasTree : Bool)
    (w : Window) (s : σ) : List RawCapture :=
  if t.supports language && language.hasGrammar && hasTree then (parser.captures w s).1 else []

theorem segment_eq_paint_captured (parser : SyntaxParser σ) (t : Tokenizer) (language : Language)
    (source : String) (hasTree : Bool) (s : σ) {a b : Nat} (hab : a < b)
    (hb : b ≤ source.utf8ByteSize) :
    (t.segment parser language source hasTree ⟨a, b⟩ s).1 =
      paint (cells source.toList) ⟨a, b⟩
        (Capture.ofRawList (t.captured parser language hasTree ⟨a, b⟩ s)) := by
  have hw : (Window.mk a b).isEmpty = false := by simpa [Window.isEmpty] using hab
  rw [utf8ByteSize_eq] at hb
  simp only [segment, captured, clampTo_of_le (Nat.le_of_lt hab) hb, hw, Bool.false_eq_true,
    if_false]
  split
  · rfl
  · simp [Capture.ofRawList, Capture.firstOfRange]

-- A window falls apart where the range of the owner changes and beside newlines, and nowhere else;
-- each span has the highlight of the owner of its bytes, and a newline has none. So nothing counts
-- but the captures of the window that can highlight bytes, and their order only for two captures
-- of one node and one pattern.
theorem spans_by_innermost_capture (parser : SyntaxParser σ) (t : Tokenizer) (language : Language)
    (source : String) (hasTree : Bool) (s : σ) {a b : Nat} (hab : a < b)
    (hb : b ≤ source.utf8ByteSize)
    (haligned : ∀ c ∈ t.captured parser language hasTree ⟨a, b⟩ s,
      c.IsAligned (cells source.toList)) :
    let bytes := cells source.toList
    let raw := t.captured parser language hasTree ⟨a, b⟩ s
    let spans := (t.segment parser language source hasTree ⟨a, b⟩ s).1
    spans = innermostSpans bytes raw ⟨a, b⟩ ∧
    (∀ span ∈ spans, ∀ offset, span.start ≤ offset → offset < span.stop →
      span.highlight = highlightAt bytes raw offset) ∧
    ∀ (τ : Type) (other : SyntaxParser τ) (u : τ),
      RawCapture.SameNodes ⟨a, b⟩ raw (t.captured other language hasTree ⟨a, b⟩ u) →
      (t.segment other language source hasTree ⟨a, b⟩ u).1 = spans := by
  intro bytes raw spans
  have hsize : b ≤ bytes.length := utf8ByteSize_eq source ▸ hb
  have hpaint : spans = paint bytes ⟨a, b⟩ (Capture.ofRawList raw) :=
    segment_eq_paint_captured parser t language source hasTree s hab hb
  have hspans : spans = innermostSpans bytes raw ⟨a, b⟩ :=
    hpaint.trans (paint_eq_innermostSpans haligned hab hsize)
  refine ⟨hspans, fun span hm offset hs he => ?_, fun τ other u hsame => ?_⟩
  · exact highlight_of_mem_innermostSpans hab (hspans ▸ hm) hs he
  · rw [segment_eq_paint_captured other t language source hasTree u hab hb, hpaint,
      paint_of_sameNodes hsame hsize]

-- The shortest capture of the first line has no known name. The newline is covered by captures of
-- one length, and of the two of one range the one listed last has the earlier pattern.
theorem spans_by_innermost_capture_rust :
    let source := "aé\ncd"
    let raw : List RawCapture := [⟨0, 6, 0, "function"⟩, ⟨1, 3, 0, "embedded"⟩, ⟨1, 4, 0, "string"⟩,
      ⟨3, 6, 2, "comment"⟩, ⟨3, 6, 1, "keyword.control"⟩]
    let parser := SyntaxParser.ofCaptures raw
    let t : Tokenizer := ⟨[.rust], []⟩
    0 < 6 ∧ 6 ≤ source.utf8ByteSize ∧
      (∀ c ∈ t.captured parser .rust true ⟨0, 6⟩ (), c.IsAligned (cells source.toList)) ∧
      (t.segment parser .rust source true ⟨0, 6⟩ ()).1.map (fun span =>
          (span.start, span.stop, span.scope)) =
        [(0, 1, some "function"), (1, 3, some "string"), (3, 4, none), (4, 6, some "keyword")] := by
  intro source raw parser t
  have hsize : 6 ≤ source.utf8ByteSize := by decide +kernel
  have haligned : ∀ c ∈ t.captured parser .rust true ⟨0, 6⟩ (),
      c.IsAligned (cells source.toList) := by decide +kernel
  obtain ⟨hspans, -, -⟩ :=
    spans_by_innermost_capture parser t .rust source true () (by decide) hsize haligned
  refine ⟨by decide, hsize, haligned, ?_⟩
  rw [hspans]
  decide +kernel

end Tokenizer

end SyntaxStream
