import SyntaxStream.Proofs.TokenBuffer
import SyntaxStream.Proofs.Transform.Run

namespace SyntaxStream.Transform

open Text Segment

variable {σ : Type} {parser : SyntaxParser σ} {t : Transform} {chunk : String} {s : σ}

-- What holds of a transform with recalls between any two calls: its live spans tile its text.
structure Recalling (t : Transform) : Prop where
  recalls : t.allowRecalls = true
  tiles : Tiles (cells t.source.toList) t.live 0 t.source.utf8ByteSize

-- There are live spans as soon as there is text.
theorem Recalling.live_eq_nil_iff (h : Recalling t) : t.live = [] ↔ t.source = "" := by
  have htiles := h.tiles
  constructor
  · intro hnil
    rw [hnil] at htiles
    by_contra hne
    exact absurd (show 0 = t.source.utf8ByteSize from htiles) (Nat.ne_of_lt (utf8ByteSize_pos hne))
  · intro hempty
    rw [hempty] at htiles
    apply List.eq_nil_iff_forall_not_mem.mpr
    intro span hm
    obtain ⟨-, hlt, hle⟩ := htiles.bounds_of_mem hm
    exact absurd (Nat.lt_of_lt_of_le hlt hle) (Nat.not_lt_zero _)

def liveAfter (parser : SyntaxParser σ) (t : Transform) (chunk : String) (s : σ) : List Span :=
  (t.reparse parser chunk s).2.1.renewed parser (t.reparse parser chunk s).1 true
    (t.reparse parser chunk s).2.2

theorem recalling_of_new {tokenizer : Tokenizer} {language : Language} {themeId : String}
    (h : Transform.new tokenizer language themeId true = .ok t) : Recalling t := by
  obtain ⟨theme, -, rfl⟩ := exists_of_new h
  exact ⟨rfl, rfl⟩

theorem Recalling.tiles_reparse (h : Recalling t) (parser : SyntaxParser σ) (chunk : String)
    (s : σ) : Tiles (cells (t.reparse parser chunk s).2.1.source.toList)
      (t.reparse parser chunk s).2.1.live 0 t.source.utf8ByteSize := by
  obtain ⟨hasTree, he⟩ := exists_reparse_eq parser t chunk s
  simp only [he, String.toList_append]
  exact h.tiles.append_text _

-- Once a chunk is parsed, doubt begins at the first change, at the last live span at the latest.
theorem doubtFrom_reparse (parser : SyntaxParser σ) (chunk : String) (s : σ) (hne : t.live ≠ []) :
    (t.reparse parser chunk s).2.1.doubtFrom (t.reparse parser chunk s).1 true =
      min (min (t.earliestChange parser chunk s) (t.source ++ chunk).utf8ByteSize)
        (t.live.getLast hne).start := by
  obtain ⟨hasTree, he⟩ := exists_reparse_eq parser t chunk s
  rw [he]
  exact doubtFrom_eq (t := { t with source := t.source ++ chunk, hasTree }) _ hne

theorem isBoundary_reparse (parser : SyntaxParser σ) (t : Transform) (chunk : String) (s : σ) :
    isBoundary (cells (t.reparse parser chunk s).2.1.source.toList)
      t.source.utf8ByteSize := by
  obtain ⟨hasTree, he⟩ := exists_reparse_eq parser t chunk s
  rw [he, String.toList_append]
  exact isBoundary_append _ (isBoundary_utf8ByteSize t.source)

theorem Recalling.push_eq (h : Recalling t) (hf : t.finished = false) (hc : chunk ≠ "") :
    t.push parser chunk s =
      ((t.reparse parser chunk s).2.1.replacement t.live (t.liveAfter parser chunk s)
        (retainedLength t.live (t.liveAfter parser chunk s) true),
      { (t.reparse parser chunk s).2.1 with
        live := t.liveAfter parser chunk s
        delivered := (t.reparse parser chunk s).2.1.source.utf8ByteSize },
      ((t.reparse parser chunk s).2.1.resegmented parser (t.reparse parser chunk s).1 true
        (t.reparse parser chunk s).2.2).2) := by
  obtain ⟨hasTree, he⟩ := exists_reparse_eq parser t chunk s
  have hlive : (t.reparse parser chunk s).2.1.live = t.live := by rw [he]
  rw [push_of_recalls h.recalls hf hc, emitWithRecalls_eq (h.tiles_reparse parser chunk s), hlive]
  rfl

theorem Recalling.tiles_liveAfter (h : Recalling t) (parser : SyntaxParser σ) (chunk : String)
    (s : σ) : Tiles (cells (t.source ++ chunk).toList) (t.liveAfter parser chunk s) 0
      (t.source ++ chunk).utf8ByteSize := by
  obtain ⟨hasTree, he⟩ := exists_reparse_eq parser t chunk s
  have hsource : (t.reparse parser chunk s).2.1.source = t.source ++ chunk := by rw [he]
  have ht := tiles_renewed parser (t.reparse parser chunk s).1 true (t.reparse parser chunk s).2.2
    (h.tiles_reparse parser chunk s) (isBoundary_reparse parser t chunk s)
  rwa [hsource] at ht

theorem longestCommonPrefix_self (xs : List Span) : longestCommonPrefix xs xs = xs := by
  simpa [longestCommonPrefix] using longestCommonPrefix_append xs [] []

-- At the end of the input every live span is as it should be.
theorem Recalling.flush_eq (h : Recalling t) (hf : t.finished = false) :
    t.flush parser s =
      ([], { t with finished := true, delivered := t.source.utf8ByteSize }, s) := by
  have hkept : keptSpans { t with finished := true } none false = t.live := by
    apply List.takeWhile_eq_self_iff.mpr
    intro span hm
    simpa [doubtFrom] using (h.tiles.bounds_of_mem hm).2.2
  have hstop : resumeAt { t with finished := true } none false = t.source.utf8ByteSize := by
    have hk := tiles_kept (t := { t with finished := true }) none false h.tiles
    rw [hkept] at hk
    exact hk.stop_unique h.tiles
  have hnone : resegmented parser { t with finished := true } none false s = ([], s) := by
    rw [resegmented, hstop]
    exact Tokenizer.segment_of_le (Nat.le_refl _)
  have hlive : renewed parser { t with finished := true } none false s = t.live := by
    rw [renewed, hkept, hnone, List.append_nil]
  rw [flush_of_recalls h.recalls hf, emitWithRecalls_eq (t := { t with finished := true }) h.tiles,
    hlive, hnone]
  simp [replacement, retainedLength, longestCommonPrefix_self]

theorem Recalling.push (h : Recalling t) (parser : SyntaxParser σ) (chunk : String) (s : σ) :
    Recalling (t.push parser chunk s).2.1 := by
  rcases t.idle_or_taken chunk with hi | ⟨hf, hc⟩
  · rwa [push_of_idle hi]
  · obtain ⟨hasTree, he⟩ := exists_reparse_eq parser t chunk s
    rw [h.push_eq hf hc]
    refine ⟨?_, ?_⟩
    · simp only [he, h.recalls]
    · simpa only [he] using h.tiles_liveAfter parser chunk s

theorem Recalling.flush (h : Recalling t) (parser : SyntaxParser σ) (s : σ) :
    Recalling (t.flush parser s).2.1 := by
  by_cases hf : t.finished = true
  · rwa [flush_of_finished hf]
  · rw [h.flush_eq (by simpa using hf)]
    exact ⟨h.recalls, h.tiles⟩

theorem Recalling.step (h : Recalling t) (parser : SyntaxParser σ) (call : Call) (s : σ) :
    Recalling (t.step parser call s).2.1 := by
  cases call with
  | push chunk => exact h.push parser chunk s
  | flush => exact h.flush parser s

theorem Recalling.run (h : Recalling t) (parser : SyntaxParser σ) (calls : List Call) (s : σ) :
    Recalling (t.run parser calls s).2.1 :=
  holds_of_run h (fun _ h call s => h.step parser call s) calls s

end SyntaxStream.Transform
