import SyntaxStream.Proofs.Text.Lines
import SyntaxStream.Proofs.Transform.Bounds

namespace SyntaxStream

namespace Batch

def added : Batch → List Token
  | tokens ts => ts
  | retract _ => []

def emitted (batches : List Batch) : List Token :=
  batches.flatMap added

-- No batch at all, or one with tokens.
def AtMostOne (batches : List Batch) : Prop :=
  batches = [] ∨ ∃ ts, ts ≠ [] ∧ batches = [.tokens ts]

theorem emitted_append (xs ys : List Batch) : emitted (xs ++ ys) = emitted xs ++ emitted ys :=
  List.flatMap_append

end Batch

namespace Transform

open Text Segment

variable {σ : Type} {parser : SyntaxParser σ} {t : Transform} {tokens : List Token}
  {stableEnd : Nat} {s : σ}

def delivery (t : Transform) (spans : List Span) : List Batch :=
  if spans.isEmpty then [] else [.tokens (t.themed spans)]

-- How much of a text is emitted: whole lines, and everything once it is complete.
def stableSize (t : Transform) : Nat :=
  if t.finished then t.source.utf8ByteSize else lineEnd t.source

-- What holds of a transform without recalls between any two calls, if these tokens have been
-- emitted: they cover the text up to the delivered mark, and the mark stands where it should.
structure Delivering (t : Transform) (tokens : List Token) : Prop where
  stable : t.allowRecalls = false
  mark : t.delivered = t.stableSize
  covered : ∃ spans, Tiles (cells t.source.toList) spans 0 t.delivered ∧ tokens = t.themed spans

theorem emitted_delivery (t : Transform) (spans : List Span) :
    Batch.emitted (t.delivery spans) = t.themed spans := by
  cases spans with
  | nil => rfl
  | cons span spans => simp [delivery, Batch.emitted, Batch.added]

theorem atMostOne_delivery (t : Transform) (spans : List Span) :
    Batch.AtMostOne (t.delivery spans) := by
  cases spans with
  | nil => exact Or.inl rfl
  | cons span spans => exact Or.inr ⟨t.themed (span :: spans), by simp, rfl⟩

theorem exists_emitStable_eq (parser : SyntaxParser σ) (s : σ) (hle : t.delivered ≤ stableEnd)
    (he : isBoundary (cells t.source.toList) stableEnd) :
    ∃ spans s', t.emitStable parser stableEnd s =
        (t.delivery spans, { t with delivered := stableEnd }, s') ∧
      Tiles (cells t.source.toList) spans t.delivered stableEnd := by
  rw [emitStable]
  by_cases h : stableEnd ≤ t.delivered
  · obtain rfl : t.delivered = stableEnd := Nat.le_antisymm hle h
    rw [if_pos h]
    exact ⟨[], s, rfl, rfl⟩
  · rw [if_neg h]
    exact ⟨_, _, rfl, Tokenizer.tiles_segment parser t.tokenizer t.language t.hasTree s hle he⟩

theorem delivering_of_new {tokenizer : Tokenizer} {language : Language} {themeId : String}
    (h : Transform.new tokenizer language themeId false = .ok t) : Delivering t [] := by
  obtain ⟨theme, -, rfl⟩ := exists_of_new h
  exact ⟨rfl, rfl, [], rfl, rfl⟩

theorem stableSize_of_finished (hf : t.finished = true) : t.stableSize = t.source.utf8ByteSize :=
  if_pos hf

theorem stableSize_of_not_finished (hf : t.finished = false) : t.stableSize = lineEnd t.source :=
  if_neg (by simp [hf])

theorem isBoundary_stableSize (t : Transform) : isBoundary (cells t.source.toList) t.stableSize := by
  cases hf : t.finished with
  | true =>
    rw [stableSize_of_finished hf]
    exact isBoundary_utf8ByteSize _
  | false =>
    rw [stableSize_of_not_finished hf]
    exact isBoundary_lineEnd t.source

-- When text is appended or the input ends, the emission up to the new stable end continues what
-- has been emitted.
theorem Delivering.emitStable (h : Delivering t tokens) (parser : SyntaxParser σ) (more : String)
    (hasTree finished : Bool) (s : σ) :
    let longer := { t with source := t.source ++ more, hasTree, finished }
    t.stableSize ≤ longer.stableSize →
    let emission := longer.emitStable parser longer.stableSize s
    Delivering emission.2.1 (tokens ++ Batch.emitted emission.1) ∧
      Batch.AtMostOne emission.1 := by
  intro longer hle
  have hmark : longer.delivered ≤ longer.stableSize := h.mark.trans_le hle
  obtain ⟨fresh, s', hemit, hfresh⟩ :=
    exists_emitStable_eq parser s hmark (isBoundary_stableSize longer)
  obtain ⟨spans, hspans, rfl⟩ := h.covered
  rw [hemit]
  refine ⟨⟨h.stable, rfl, spans ++ fresh, ?_, ?_⟩, atMostOne_delivery longer fresh⟩
  · have hold := hspans.append_text more.toList
    rw [← String.toList_append] at hold
    exact hold.append hfresh
  · have hthemed : longer.themed spans = t.themed spans := themed_append_source rfl rfl hspans
    rw [emitted_delivery, ← hthemed, ← themed_append]
    rfl

theorem Delivering.push (h : Delivering t tokens) (parser : SyntaxParser σ) (chunk : String)
    (s : σ) :
    Delivering (t.push parser chunk s).2.1 (tokens ++ Batch.emitted (t.push parser chunk s).1) ∧
      Batch.AtMostOne (t.push parser chunk s).1 := by
  rcases t.idle_or_taken chunk with hi | ⟨hf, hc⟩
  · rw [push_of_idle hi]
    exact ⟨by simpa [Batch.emitted] using h, Or.inl rfl⟩
  · obtain ⟨hasTree, he⟩ := exists_reparse_eq parser t chunk s
    have hsize : { t with source := t.source ++ chunk, hasTree }.stableSize =
        lineEnd (t.source ++ chunk) := stableSize_of_not_finished hf
    have hle : t.stableSize ≤ lineEnd (t.source ++ chunk) := by
      rw [stableSize_of_not_finished hf]
      exact lineEnd_le_append t.source chunk
    have hemit := h.emitStable parser chunk hasTree t.finished (t.reparse parser chunk s).2.2
    simp only [hsize] at hemit
    rw [push_of_stable h.stable hf hc, he]
    exact hemit hle

theorem Delivering.flush (h : Delivering t tokens) (parser : SyntaxParser σ) (s : σ) :
    Delivering (t.flush parser s).2.1 (tokens ++ Batch.emitted (t.flush parser s).1) ∧
      Batch.AtMostOne (t.flush parser s).1 := by
  by_cases hf : t.finished = true
  · rw [flush_of_finished hf]
    exact ⟨by simpa [Batch.emitted] using h, Or.inl rfl⟩
  · have hf : t.finished = false := by simpa using hf
    have hle : t.stableSize ≤ t.source.utf8ByteSize := by
      rw [utf8ByteSize_eq]
      exact le_length_of_isBoundary (isBoundary_stableSize t)
    have hemit := h.emitStable parser "" t.hasTree true s
    simp only [String.append_empty, stableSize_of_finished] at hemit
    rw [flush_of_stable h.stable hf]
    exact hemit hle

-- A call continues what has been emitted, with at most one batch, and never takes anything back.
theorem Delivering.step (h : Delivering t tokens) (parser : SyntaxParser σ) (call : Call) (s : σ) :
    Delivering (t.step parser call s).2.1 (tokens ++ Batch.emitted (t.step parser call s).1) ∧
      Batch.AtMostOne (t.step parser call s).1 := by
  cases call with
  | push chunk => exact h.push parser chunk s
  | flush => exact h.flush parser s

theorem Delivering.run (h : Delivering t tokens) (parser : SyntaxParser σ) (calls : List Call)
    (s : σ) :
    Delivering (t.run parser calls s).2.1 (tokens ++ Batch.emitted (t.run parser calls s).1) ∧
      ∀ batch ∈ (t.run parser calls s).1, batch.isRetraction = false := by
  induction calls generalizing t tokens s with
  | nil => exact ⟨by simpa [Transform.run, Batch.emitted] using h, by simp [Transform.run]⟩
  | cons call rest ih =>
    obtain ⟨hnext, hone⟩ := h.step parser call s
    obtain ⟨hlater, hnone⟩ := ih hnext (t.step parser call s).2.2
    rw [run_cons]
    simp only [Batch.emitted_append, ← List.append_assoc]
    refine ⟨hlater, fun batch hm => ?_⟩
    rcases List.mem_append.mp hm with hm | hm
    · rcases hone with hnil | ⟨ts, -, hts⟩
      · simp [hnil] at hm
      · rw [hts, List.mem_singleton] at hm
        rw [hm]
        rfl
    · exact hnone batch hm

theorem Delivering.push?_eq (h : Delivering t tokens) (parser : SyntaxParser σ) (chunk : String)
    (s : σ) : t.push? parser chunk s = some (t.push parser chunk s) := by
  by_cases hc : (t.finished || chunk.isEmpty) = true
  · simp only [push?, Transform.push, hc, if_true]
  · obtain ⟨hasTree, he⟩ := exists_reparse_eq parser t chunk s
    have hr : (t.reparse parser chunk s).2.1.allowRecalls = false := by rw [he, h.stable]
    have hmark : isBoundary (cells (t.reparse parser chunk s).2.1.source.toList)
        (t.reparse parser chunk s).2.1.delivered := by
      rw [he, h.mark, String.toList_append]
      exact isBoundary_append chunk.toList (isBoundary_stableSize t)
    simp only [push?, Transform.push, hc, hr, Bool.false_eq_true, if_false]
    exact emitStable?_eq hmark (isBoundary_lineEnd _)

theorem Delivering.flush?_eq (h : Delivering t tokens) (parser : SyntaxParser σ) (s : σ) :
    t.flush? parser s = some (t.flush parser s) := by
  by_cases hf : t.finished = true
  · simp only [flush?, Transform.flush, hf, if_true]
  · have hmark : isBoundary (cells t.source.toList) t.delivered :=
      h.mark ▸ isBoundary_stableSize t
    simp only [flush?, Transform.flush, hf, h.stable, Bool.false_eq_true, if_false]
    exact emitStable?_eq (t := { t with allowRecalls := false, finished := true }) hmark
      (isBoundary_utf8ByteSize t.source)

theorem Delivering.step?_eq (h : Delivering t tokens) (parser : SyntaxParser σ) (call : Call)
    (s : σ) : t.step? parser call s = some (t.step parser call s) := by
  cases call with
  | push chunk => exact h.push?_eq parser chunk s
  | flush => exact h.flush?_eq parser s

theorem Delivering.text (h : Delivering t tokens) :
    String.join (tokens.map (·.content)) =
      if t.finished then t.source else completeLines t.source := by
  obtain ⟨spans, hspans, rfl⟩ := h.covered
  rw [join_content_themed hspans, h.mark]
  cases hf : t.finished with
  | true => rw [stableSize_of_finished hf, slice_zero_utf8ByteSize, if_pos rfl]
  | false => rw [stableSize_of_not_finished hf, slice_lineEnd, if_neg Bool.false_ne_true]

theorem Delivering.inPlace (h : Delivering t tokens) : InPlace t.source tokens := by
  obtain ⟨spans, hspans, rfl⟩ := h.covered
  exact inPlace_themed hspans

-- Without recalls only whole lines are emitted until the input ends, then all the rest. What has
-- been emitted is final, and after the end of the input nothing happens any more.
theorem stable_delivery {tokenizer : Tokenizer} {language : Language} {themeId : String}
    {start : Transform} (hnew : Transform.new tokenizer language themeId false = .ok start)
    (parser : SyntaxParser σ) (calls : List Call) (s : σ) :
    let reached := start.run parser calls s
    let tokens := Batch.emitted reached.1
    (∀ batch ∈ reached.1, batch.isRetraction = false) ∧
    String.join (tokens.map (·.content)) =
      (if Call.flush ∈ calls then Call.pushed calls else completeLines (Call.pushed calls)) ∧
    InPlace (Call.pushed calls) tokens ∧
    reached.2.1.source = Call.pushed calls ∧
    ∀ call,
      let next := reached.2.1.step parser call reached.2.2
      (next.1 = [] ∨ ∃ ts, ts ≠ [] ∧ next.1 = [.tokens ts]) ∧
      (Call.flush ∈ calls → next.1 = [] ∧ next.2.1.source = reached.2.1.source) := by
  obtain ⟨h, hfinal⟩ := (delivering_of_new hnew).run parser calls s
  obtain ⟨hsource, hfinished⟩ := run_of_new hnew parser calls s
  have htext := h.text
  have hplace := h.inPlace
  simp only [hsource, hfinished, List.nil_append] at htext hplace
  refine ⟨hfinal, htext, hplace, hsource, fun call => ⟨(h.step parser call _).2, ?_⟩⟩
  intro hflush
  have hf := hfinished.mpr hflush
  cases call with
  | push chunk => simp only [step, push_of_idle (Or.inl hf), and_self]
  | flush => simp only [step, flush_of_finished hf, and_self]

theorem stable_delivery_python :
    let calls := [.push "a\nb", .push "c\n\nd"]
    let answers : Recording := ⟨[.parsed [], .failed], [[⟨0, 1, 0, "variable"⟩]], false⟩
    let reached := (bare .python false).run Recording.player calls answers
    Transform.new (Tokenizer.bare .python) .python "bare" false = .ok (bare .python false) ∧
      String.join ((Batch.emitted reached.1).map (·.content)) = "a\nbc\n\n" := by
  intro calls answers reached
  obtain ⟨-, htext, -⟩ := stable_delivery (new_bare .python false) Recording.player calls answers
  exact ⟨new_bare .python false, htext.trans (by decide +kernel)⟩

end Transform

end SyntaxStream
