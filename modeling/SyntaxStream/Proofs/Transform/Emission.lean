import SyntaxStream.Proofs.Segment.Window
import SyntaxStream.Proofs.Transform.CommonPrefix
import SyntaxStream.Proofs.Transform.Themed
import Mathlib.Data.List.TakeWhile

namespace SyntaxStream.Transform

open Text Segment

variable {σ : Type} {parser : SyntaxParser σ} {t : Transform} {changedFrom : Option Nat}
  {provisional : Bool} {s : σ} {b : Nat}

-- The first byte from which on live spans are doubtful.
def doubtFrom (t : Transform) (changedFrom : Option Nat) (provisional : Bool) : Nat :=
  let changed := min (changedFrom.getD t.source.utf8ByteSize) t.source.utf8ByteSize
  match provisional, t.live.getLast? with
  | true, some last => min changed last.start
  | _, _ => changed

def keptSpans (t : Transform) (changedFrom : Option Nat) (provisional : Bool) : List Span :=
  t.live.takeWhile fun span => span.stop ≤ t.doubtFrom changedFrom provisional

def doubtfulSpans (t : Transform) (changedFrom : Option Nat) (provisional : Bool) : List Span :=
  t.live.dropWhile fun span => span.stop ≤ t.doubtFrom changedFrom provisional

def resumeAt (t : Transform) (changedFrom : Option Nat) (provisional : Bool) : Nat :=
  ((t.keptSpans changedFrom provisional).getLast?.map (·.stop)).getD 0

def resegmented (parser : SyntaxParser σ) (t : Transform) (changedFrom : Option Nat)
    (provisional : Bool) (s : σ) : List Span × σ :=
  t.tokenizer.segment parser t.language t.source t.hasTree
    ⟨t.resumeAt changedFrom provisional, t.source.utf8ByteSize⟩ s

def renewed (parser : SyntaxParser σ) (t : Transform) (changedFrom : Option Nat)
    (provisional : Bool) (s : σ) : List Span :=
  t.keptSpans changedFrom provisional ++ (t.resegmented parser changedFrom provisional s).1

-- How many doubtful spans are found again and stay.
def sameLength (fresh doubtful : List Span) (provisional : Bool) : Nat :=
  let common := commonLength fresh doubtful
  if provisional && common == doubtful.length then common - 1 else common

-- How many spans stay when new ones replace old ones. The last one never does while more text may
-- come.
def retainedLength (old new : List Span) (provisional : Bool) : Nat :=
  let common := (longestCommonPrefix old new).length
  if provisional then min common (old.length - 1) else common

-- The batches that lead a consumer from old spans to new ones.
def replacement (t : Transform) (old new : List Span) (retained : Nat) : List Batch :=
  (if retained < old.length then [Batch.retract (old.length - retained)] else []) ++
  (if retained < new.length then [Batch.tokens (t.themed (new.drop retained))] else [])

theorem kept_append_doubtful (t : Transform) (changedFrom : Option Nat) (provisional : Bool) :
    t.keptSpans changedFrom provisional ++ t.doubtfulSpans changedFrom provisional = t.live :=
  List.takeWhile_append_dropWhile

theorem retainedLength_provisional (old new : List Span) :
    retainedLength old new true = min (longestCommonPrefix old new).length (old.length - 1) := rfl

theorem retainedLength_le_common (old new : List Span) (provisional : Bool) :
    retainedLength old new provisional ≤ (longestCommonPrefix old new).length := by
  unfold retainedLength
  split
  · exact Nat.min_le_left _ _
  · exact Nat.le_refl _

theorem retainedLength_le_left (old new : List Span) (provisional : Bool) :
    retainedLength old new provisional ≤ old.length :=
  (retainedLength_le_common old new provisional).trans
    (longestCommonPrefix_prefix_left old new).length_le

theorem retainedLength_le_right (old new : List Span) (provisional : Bool) :
    retainedLength old new provisional ≤ new.length :=
  (retainedLength_le_common old new provisional).trans
    (longestCommonPrefix_prefix_right old new).length_le

-- The last live span always counts as doubtful while more text may come.
theorem doubtful_ne_nil (changedFrom : Option Nat) (provisional : Bool)
    (h : Tiles (cells t.source.toList) t.live 0 b) (hk : t.keptSpans changedFrom provisional ≠ [])
    (hp : provisional = true) : t.doubtfulSpans changedFrom provisional ≠ [] := by
  subst hp
  intro hd
  have hne : t.live ≠ [] := fun he => hk (by rw [keptSpans, he, List.takeWhile_nil])
  obtain ⟨front, last, hl⟩ := List.eq_nil_or_concat t.live |>.resolve_left hne
  have hall := List.dropWhile_eq_nil_iff.mp hd
  have hmem : last ∈ t.live := by simp [hl]
  have hlast := hall last hmem
  have hb := (h.bounds_of_mem hmem).2.1
  simp only [doubtFrom, hl, List.concat_eq_append, List.getLast?_concat, decide_eq_true_eq] at hlast
  omega

theorem drop_length_kept (t : Transform) (changedFrom : Option Nat) (provisional : Bool) :
    t.live.drop (t.keptSpans changedFrom provisional).length =
      t.doubtfulSpans changedFrom provisional := by
  conv_lhs => rw [← kept_append_doubtful t changedFrom provisional, List.drop_left]

-- What stays of the doubtful spans, added to the kept ones, is what stays of all live spans.
theorem length_add_sameLength (fresh : List Span) {doubtful kept : List Span}
    (hne : kept ≠ [] → provisional = true → doubtful ≠ []) :
    kept.length + sameLength fresh doubtful provisional =
      retainedLength (kept ++ doubtful) (kept ++ fresh) provisional := by
  have hle : (longestCommonPrefix doubtful fresh).length ≤ doubtful.length :=
    (longestCommonPrefix_prefix_left doubtful fresh).length_le
  simp only [sameLength, retainedLength, commonLength_eq, longestCommonPrefix_append,
    List.length_append]
  cases hp : provisional with
  | false => simp
  | true =>
    have hlen : kept.length = 0 ∨ 0 < doubtful.length := by
      by_cases hk : kept = []
      · exact Or.inl (List.length_eq_zero_iff.mpr hk)
      · exact Or.inr (List.length_pos_iff.mpr (hne hk hp))
    by_cases he : (longestCommonPrefix doubtful fresh).length = doubtful.length
    · simp only [he, beq_self_eq_true, Bool.and_self, if_true]
      omega
    · simp only [beq_iff_eq, he, Bool.true_and, if_true, if_false]
      omega

theorem doubtFrom_eq (changedFrom : Option Nat) (hne : t.live ≠ []) :
    t.doubtFrom changedFrom true =
      min (min (changedFrom.getD t.source.utf8ByteSize) t.source.utf8ByteSize)
        (t.live.getLast hne).start := by
  simp only [doubtFrom, List.getLast?_eq_some_getLast hne]

theorem lt_length_kept (h : Tiles (cells t.source.toList) t.live 0 b) {i : Nat}
    (hi : i < t.live.length) (hstop : t.live[i].stop ≤ t.doubtFrom changedFrom provisional) :
    i < (t.keptSpans changedFrom provisional).length := by
  by_contra hnot
  have hmem : t.live[i] ∈ t.live.drop (t.keptSpans changedFrom provisional).length :=
    List.mem_drop_iff_getElem.mpr
      ⟨i - (t.keptSpans changedFrom provisional).length, by omega, by congr 1; omega⟩
  rw [drop_length_kept] at hmem
  have hlt := h.lt_stop_of_mem_dropWhile _ hmem
  omega

theorem length_kept_le (h : Tiles (cells t.source.toList) t.live 0 b) (fresh : List Span) :
    (t.keptSpans changedFrom provisional).length ≤
      retainedLength t.live (t.keptSpans changedFrom provisional ++ fresh) provisional := by
  have hsame := length_add_sameLength fresh (doubtful_ne_nil changedFrom provisional h)
  rw [kept_append_doubtful] at hsame
  omega

theorem exists_tiles_kept (changedFrom : Option Nat) (provisional : Bool)
    (h : Tiles (cells t.source.toList) t.live 0 b) :
    ∃ m, Tiles (cells t.source.toList) (t.keptSpans changedFrom provisional) 0 m ∧
      Tiles (cells t.source.toList) (t.doubtfulSpans changedFrom provisional) m b := by
  rw [← kept_append_doubtful t changedFrom provisional] at h
  exact h.exists_of_append

theorem tiles_kept (changedFrom : Option Nat) (provisional : Bool)
    (h : Tiles (cells t.source.toList) t.live 0 b) :
    Tiles (cells t.source.toList) (t.keptSpans changedFrom provisional) 0
      (t.resumeAt changedFrom provisional) := by
  obtain ⟨m, hk, -⟩ := exists_tiles_kept changedFrom provisional h
  have hm : t.resumeAt changedFrom provisional = m := hk.getLast?_stop
  rwa [hm]

theorem resumeAt_le (changedFrom : Option Nat) (provisional : Bool)
    (h : Tiles (cells t.source.toList) t.live 0 b) :
    t.resumeAt changedFrom provisional ≤ b := by
  obtain ⟨m, hk, hd⟩ := exists_tiles_kept changedFrom provisional h
  exact (tiles_kept changedFrom provisional h).stop_unique hk ▸ hd.le

theorem tiles_resegmented (parser : SyntaxParser σ) (changedFrom : Option Nat)
    (provisional : Bool) (s : σ) (h : Tiles (cells t.source.toList) t.live 0 b)
    (hb : isBoundary (cells t.source.toList) b) :
    Tiles (cells t.source.toList) (t.resegmented parser changedFrom provisional s).1
      (t.resumeAt changedFrom provisional) t.source.utf8ByteSize := by
  have hsize := utf8ByteSize_eq t.source
  apply Tokenizer.tiles_segment
  · exact (resumeAt_le changedFrom provisional h).trans (hsize ▸ le_length_of_isBoundary hb)
  · exact isBoundary_utf8ByteSize _

-- After an emission the live spans tile the whole text, whatever the parser has answered.
theorem tiles_renewed (parser : SyntaxParser σ) (changedFrom : Option Nat)
    (provisional : Bool) (s : σ) (h : Tiles (cells t.source.toList) t.live 0 b)
    (hb : isBoundary (cells t.source.toList) b) :
    Tiles (cells t.source.toList) (t.renewed parser changedFrom provisional s) 0
      t.source.utf8ByteSize :=
  (tiles_kept changedFrom provisional h).append (tiles_resegmented parser changedFrom provisional s h hb)

theorem sameLength_le_common (fresh doubtful : List Span) (provisional : Bool) :
    sameLength fresh doubtful provisional ≤ (longestCommonPrefix doubtful fresh).length := by
  rw [sameLength, commonLength_eq]
  split <;> omega

theorem emitWithRecalls_unfold :
    t.emitWithRecalls parser changedFrom provisional s =
      let kept := t.keptSpans changedFrom provisional
      let doubtful := t.live.drop kept.length
      let fresh := (t.resegmented parser changedFrom provisional s).1
      let same := sameLength fresh doubtful provisional
      let retained := kept ++ doubtful.take same
      let added := fresh.drop same
      ((if t.live.length - retained.length > 0 then
          [Batch.retract (t.live.length - retained.length)] else []) ++
        (if added.isEmpty then [] else [Batch.tokens (t.themed added)]),
      { t with live := retained ++ added, delivered := t.source.utf8ByteSize },
      (t.resegmented parser changedFrom provisional s).2) := rfl

-- An emission replaces the live spans and tells the consumer what to replace.
theorem emitWithRecalls_eq (h : Tiles (cells t.source.toList) t.live 0 b) :
    t.emitWithRecalls parser changedFrom provisional s =
      (t.replacement t.live (t.renewed parser changedFrom provisional s)
        (retainedLength t.live (t.renewed parser changedFrom provisional s) provisional),
      { t with
        live := t.renewed parser changedFrom provisional s
        delivered := t.source.utf8ByteSize },
      (t.resegmented parser changedFrom provisional s).2) := by
  have hlive := kept_append_doubtful t changedFrom provisional
  have hne := doubtful_ne_nil changedFrom provisional h
  simp only [emitWithRecalls_unfold, drop_length_kept, renewed]
  generalize t.keptSpans changedFrom provisional = kept at *
  generalize t.doubtfulSpans changedFrom provisional = doubtful at *
  generalize (t.resegmented parser changedFrom provisional s).1 = fresh
  have hsame := length_add_sameLength fresh hne
  have hold := retainedLength_le_left (kept ++ doubtful) (kept ++ fresh) provisional
  have hnew := retainedLength_le_common (kept ++ doubtful) (kept ++ fresh) provisional
  rw [← hsame, List.length_append, Nat.add_le_add_iff_left] at hold
  rw [← hsame, longestCommonPrefix_append, List.length_append, Nat.add_le_add_iff_left] at hnew
  rw [← hlive, ← hsame]
  generalize sameLength fresh doubtful provisional = same at *
  -- the spans found again are the first of the fresh ones, so that no span is lost or doubled
  have hretained : (kept ++ doubtful.take same).length = kept.length + same := by
    rw [List.length_append, List.length_take, Nat.min_eq_left hold]
  have hlist : kept ++ doubtful.take same ++ fresh.drop same = kept ++ fresh := by
    rw [take_eq_take_of_le hnew, List.append_assoc, List.take_append_drop]
  have hdrop : (kept ++ fresh).drop (kept.length + same) = fresh.drop same := by
    rw [List.drop_append, List.drop_of_length_le (by omega), List.nil_append, Nat.add_sub_cancel_left]
  rw [hretained, hlist, replacement, hdrop]
  simp only [gt_iff_lt, Nat.sub_pos_iff_lt, List.isEmpty_iff, List.drop_eq_nil_iff,
    List.length_append, Nat.add_lt_add_iff_left]
  by_cases hle : fresh.length ≤ same
  · simp [hle, Nat.not_lt.mpr hle]
  · simp [hle, Nat.lt_of_not_le hle]

end SyntaxStream.Transform
