import SyntaxStream.Proofs.Segment.Bounds
import SyntaxStream.Proofs.Transform.Recall

namespace SyntaxStream

open Text

namespace Guarded

def from? (spans : List Span) (index : Nat) : Option (List Span) :=
  if index ≤ spans.length then some (spans.drop index) else none

-- A text can be cut between characters only.
def slice? (source : String) (a b : Nat) : Option String :=
  if a ≤ b && isBoundary (cells source.toList) a && isBoundary (cells source.toList) b then
    some (slice (cells source.toList) a b)
  else
    none

-- A partition point is found by halving, so that no element behind it may satisfy p.
def partitionPoint? (p : Span → Bool) (spans : List Span) : Option Nat :=
  if (spans.dropWhile p).any p then none else some (spans.takeWhile p).length

end Guarded

namespace Transform

open Segment Guarded

variable {σ : Type}

def token? (t : Transform) (span : Span) : Option Token := do
  let content ← slice? t.source span.start span.stop
  return {
    content
    offset := span.start
    scope := span.scope
    color := span.highlight.bind t.theme.colorFor }

def windowStart? (t : Transform) (keep : Nat) : Option Nat :=
  if keep = 0 then
    some 0
  else do
    let last ← t.live[← sub? keep 1]?
    return last.stop

-- How many doubtful spans stay. If all live spans are found again, the last one is given up.
def same? (t : Transform) (keep common : Nat) (provisional : Bool) : Option Nat :=
  if provisional && keep + common == t.live.length && 0 < common then sub? common 1
  else some common

def emitWithRecalls? (parser : SyntaxParser σ) (t : Transform) (changedFrom : Option Nat)
    (provisional : Bool) (s : σ) : Option (List Batch × Transform × σ) := do
  let keep ← partitionPoint? (fun span => span.stop ≤ t.doubtFrom changedFrom provisional) t.live
  let windowStart ← t.windowStart? keep
  let (fresh, s) := t.tokenizer.segment parser t.language t.source t.hasTree
    ⟨windowStart, t.source.utf8ByteSize⟩ s
  let doubtful ← from? t.live keep
  let same ← t.same? keep (commonLength fresh doubtful) provisional
  let recalled ← sub? t.live.length (keep + same)
  let added ← from? fresh same
  let tokens ← added.mapM t.token?
  return ((if recalled > 0 then [Batch.retract recalled] else []) ++
      (if added.isEmpty then [] else [Batch.tokens tokens]),
    { t with
      live := t.live.take (keep + same) ++ added
      delivered := t.source.utf8ByteSize }, s)

def emitStable? (parser : SyntaxParser σ) (t : Transform) (stableEnd : Nat) (s : σ) :
    Option (List Batch × Transform × σ) :=
  if stableEnd ≤ t.delivered then
    some ([], t, s)
  else do
    let (spans, s) :=
      t.tokenizer.segment parser t.language t.source t.hasTree ⟨t.delivered, stableEnd⟩ s
    let tokens ← spans.mapM t.token?
    return (if spans.isEmpty then [] else [Batch.tokens tokens],
      { t with delivered := stableEnd }, s)

def push? (parser : SyntaxParser σ) (t : Transform) (chunk : String) (s : σ) :
    Option (List Batch × Transform × σ) :=
  if t.finished || chunk.isEmpty then
    some ([], t, s)
  else
    let (changedFrom, t, s) := t.reparse parser chunk s
    if t.allowRecalls then
      t.emitWithRecalls? parser changedFrom true s
    else
      t.emitStable? parser (lineEnd t.source) s

def flush? (parser : SyntaxParser σ) (t : Transform) (s : σ) :
    Option (List Batch × Transform × σ) :=
  if t.finished then
    some ([], t, s)
  else
    let t := { t with finished := true }
    if t.allowRecalls then
      t.emitWithRecalls? parser none false s
    else
      t.emitStable? parser t.source.utf8ByteSize s

def step? (parser : SyntaxParser σ) (t : Transform) (call : Call) (s : σ) :
    Option (List Batch × Transform × σ) :=
  match call with
  | .push chunk => t.push? parser chunk s
  | .flush => t.flush? parser s

variable {parser : SyntaxParser σ} {t : Transform} {changedFrom : Option Nat}
  {provisional : Bool} {s : σ} {a b : Nat}

theorem mapM_token? {spans : List Span} (h : Tiles (cells t.source.toList) spans a b)
    (ha : isBoundary (cells t.source.toList) a) :
    spans.mapM t.token? = some (t.themed spans) := by
  rw [themed_eq_map]
  have hspan : ∀ span ∈ spans, t.token? span = some (t.tokenOf span) := by
    intro span hm
    have hle := Nat.le_of_lt (h.bounds_of_mem hm).2.1
    obtain ⟨hstart, hstop⟩ := h.isBoundary_of_mem ha hm
    simp [token?, slice?, hle, hstart, hstop, tokenOf]
  clear h
  induction spans with
  | nil => rfl
  | cons span spans ih =>
    rw [List.mapM_cons, hspan span List.mem_cons_self,
      ih fun other hm => hspan other (List.mem_cons_of_mem span hm)]
    rfl

-- The spans that end before the doubt form a prefix, so that halving finds their number.
theorem partitionPoint?_eq (h : Tiles (cells t.source.toList) t.live 0 b) :
    partitionPoint? (fun span => span.stop ≤ t.doubtFrom changedFrom provisional) t.live =
      some (t.keptSpans changedFrom provisional).length := by
  rw [partitionPoint?, if_neg]
  · rfl
  · intro hany
    obtain ⟨span, hm, hp⟩ := List.any_eq_true.mp hany
    have hlt := h.lt_stop_of_mem_dropWhile _ hm
    simp only [decide_eq_true_eq] at hp
    omega

theorem windowStart?_eq (t : Transform) (changedFrom : Option Nat) (provisional : Bool) :
    t.windowStart? (t.keptSpans changedFrom provisional).length =
      some (t.resumeAt changedFrom provisional) := by
  have hlive := kept_append_doubtful t changedFrom provisional
  rw [windowStart?, resumeAt, List.getLast?_eq_getElem?]
  generalize t.keptSpans changedFrom provisional = kept at *
  by_cases hk : kept.length = 0
  · simp [List.length_eq_zero_iff.mp hk]
  · have hlt : kept.length - 1 < kept.length := by omega
    have hle : 1 ≤ kept.length := Nat.one_le_iff_ne_zero.mpr hk
    simp [hk, sub?, hle, ← hlive, List.getElem?_append_left hlt, List.getElem?_eq_getElem hlt]

theorem same?_eq (t : Transform) (fresh : List Span) :
    t.same? (t.keptSpans changedFrom provisional).length
        (commonLength fresh (t.doubtfulSpans changedFrom provisional)) provisional =
      some (sameLength fresh (t.doubtfulSpans changedFrom provisional) provisional) := by
  have hlive := congrArg List.length (kept_append_doubtful t changedFrom provisional)
  rw [List.length_append] at hlive
  simp only [same?, sameLength, ← hlive]
  generalize (t.doubtfulSpans changedFrom provisional).length = total
  generalize commonLength fresh (t.doubtfulSpans changedFrom provisional) = common
  cases provisional with
  | false => simp
  | true =>
    by_cases he : common = total
    · subst he
      cases common with
      | zero => simp
      | succ n => simp [sub?]
    · simp [he]

theorem emitWithRecalls?_eq (h : Tiles (cells t.source.toList) t.live 0 b)
    (hb : isBoundary (cells t.source.toList) b) :
    t.emitWithRecalls? parser changedFrom provisional s =
      some (t.emitWithRecalls parser changedFrom provisional s) := by
  have hsame := sameLength_le_common (t.resegmented parser changedFrom provisional s).1
    (t.doubtfulSpans changedFrom provisional) provisional
  have hold := hsame.trans (longestCommonPrefix_prefix_left _ _).length_le
  have hnew := hsame.trans (longestCommonPrefix_prefix_right _ _).length_le
  have hlive := kept_append_doubtful t changedFrom provisional
  have hlen := congrArg List.length hlive
  rw [List.length_append] at hlen
  have hseg : t.tokenizer.segment parser t.language t.source t.hasTree
      ⟨t.resumeAt changedFrom provisional, t.source.utf8ByteSize⟩ s =
      t.resegmented parser changedFrom provisional s := rfl
  have hfresh := tiles_resegmented parser changedFrom provisional s h hb
  have hstart := (tiles_kept changedFrom provisional h).isBoundary_stop (isBoundary_zero _)
  rw [emitWithRecalls?, partitionPoint?_eq h, emitWithRecalls_unfold]
  simp only [Option.bind_eq_bind, Option.bind_some, windowStart?_eq, from?, hseg]
  rw [if_pos (by omega), drop_length_kept, Option.bind_some, same?_eq, Option.bind_some]
  generalize sameLength (t.resegmented parser changedFrom provisional s).1
    (t.doubtfulSpans changedFrom provisional) provisional = same at *
  rw [sub?, if_pos (by omega), Option.bind_some, if_pos hnew, Option.bind_some]
  rw [← List.take_append_drop same (t.resegmented parser changedFrom provisional s).1] at hfresh
  obtain ⟨m, hfound, hadded⟩ := hfresh.exists_of_append
  rw [mapM_token? hadded (hfound.isBoundary_stop hstart), Option.bind_some]
  have htake : t.live.take ((t.keptSpans changedFrom provisional).length + same) =
      t.keptSpans changedFrom provisional ++ (t.doubtfulSpans changedFrom provisional).take same := by
    conv_lhs => rw [← hlive, List.take_length_add_append]
  have hretained : (t.keptSpans changedFrom provisional ++
      (t.doubtfulSpans changedFrom provisional).take same).length =
      (t.keptSpans changedFrom provisional).length + same := by
    rw [List.length_append, List.length_take, Nat.min_eq_left hold]
  rw [htake, hretained]
  rfl

theorem emitStable?_eq {stableEnd : Nat} (hd : isBoundary (cells t.source.toList) t.delivered)
    (he : isBoundary (cells t.source.toList) stableEnd) :
    t.emitStable? parser stableEnd s = some (t.emitStable parser stableEnd s) := by
  rw [emitStable?, emitStable]
  by_cases hle : stableEnd ≤ t.delivered
  · rw [if_pos hle, if_pos hle]
  · rw [if_neg hle, if_neg hle]
    have ht := Tokenizer.tiles_segment parser t.tokenizer t.language t.hasTree s
      (Nat.le_of_lt (Nat.lt_of_not_le hle)) he
    simp only [mapM_token? ht hd]
    rfl

theorem Recalling.push?_eq (h : Recalling t) (parser : SyntaxParser σ) (chunk : String) (s : σ) :
    t.push? parser chunk s = some (t.push parser chunk s) := by
  by_cases hc : (t.finished || chunk.isEmpty) = true
  · simp only [push?, Transform.push, hc, if_true]
  · obtain ⟨hasTree, he⟩ := exists_reparse_eq parser t chunk s
    have hr : (t.reparse parser chunk s).2.1.allowRecalls = true := by rw [he, h.recalls]
    simp only [push?, Transform.push, hc, Bool.false_eq_true, if_false, hr, if_true]
    exact emitWithRecalls?_eq (h.tiles_reparse parser chunk s) (isBoundary_reparse parser t chunk s)

theorem Recalling.flush?_eq (h : Recalling t) (parser : SyntaxParser σ) (s : σ) :
    t.flush? parser s = some (t.flush parser s) := by
  by_cases hf : t.finished = true
  · simp only [flush?, Transform.flush, hf, if_true]
  · simp only [flush?, Transform.flush, hf, Bool.false_eq_true, if_false, h.recalls, if_true]
    exact emitWithRecalls?_eq (t := { t with allowRecalls := true, finished := true }) h.tiles
      (isBoundary_utf8ByteSize t.source)

theorem Recalling.step?_eq (h : Recalling t) (parser : SyntaxParser σ) (call : Call) (s : σ) :
    t.step? parser call s = some (t.step parser call s) := by
  cases call with
  | push chunk => exact h.push?_eq parser chunk s
  | flush => exact h.flush?_eq parser s

end Transform

end SyntaxStream
