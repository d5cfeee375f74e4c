import SyntaxStream.Proofs.Capture.Owner
import Mathlib.Data.List.MinMax
import Mathlib.Data.Prod.Lex

namespace SyntaxStream

section Sorting

variable {α β : Type} [LinearOrder β] {f : α → β} {l : List α}

theorem decide_le_trans (f : α → β) (a b c : α) (hab : decide (f a ≤ f b) = true)
    (hbc : decide (f b ≤ f c) = true) : decide (f a ≤ f c) = true := by
  rw [decide_eq_true_eq] at hab hbc ⊢
  exact hab.trans hbc

theorem decide_le_total (f : α → β) (a b : α) :
    (decide (f a ≤ f b) || decide (f b ≤ f a)) = true := by
  rw [Bool.or_eq_true, decide_eq_true_eq, decide_eq_true_eq]
  exact le_total (f a) (f b)

-- A stable sort brings the first of the least elements to the front.
theorem head?_mergeSort (f : α → β) (l : List α) :
    (l.mergeSort fun a b => f a ≤ f b).head? = l.argmin f := by
  induction l with
  | nil => simp
  | cons a l ih =>
    obtain ⟨less, rest, hs, hl, hless, hrest⟩ :=
      exists_mergeSort_cons (decide_le_trans f) (decide_le_total f) a l
    rw [hl] at ih
    rw [hs, List.argmin_cons, ← ih]
    cases less with
    | nil =>
      cases rest with
      | nil => rfl
      | cons b rest =>
        have hb : f a ≤ f b := by simpa using hrest b List.mem_cons_self
        simp [not_lt.mpr hb]
    | cons b less =>
      have hb : f b < f a := by simpa using hless b List.mem_cons_self
      simp [hb]

-- The winner stays the winner among fewer.
theorem argmin_filter {p : α → Bool} {m : α} (h : l.argmin f = some m) (hp : p m = true) :
    (l.filter p).argmin f = some m := by
  rw [← head?_mergeSort] at h ⊢
  rw [← filter_mergeSort (decide_le_trans f) (decide_le_total f), List.head?_filter]
  obtain ⟨rest, hs⟩ := List.head?_eq_some_iff.mp h
  rw [hs, List.find?_cons, hp]

theorem argmin_cons_cons_of_le {a b : α} (h : f a ≤ f b) :
    (a :: b :: l).argmin f = (a :: l).argmin f := by
  rw [List.argmin_cons, List.argmin_cons f b, List.argmin_cons f a]
  cases l.argmin f with
  | none => simp [not_lt.mpr h]
  | some c =>
    by_cases hc : f c < f b
    · simp [hc]
    · have hac : ¬ f c < f a := fun hlt => hc (hlt.trans_le h)
      simp [hc, hac, not_lt.mpr h]

-- Only elements that are equally good compete for the place in front.
theorem argmin_append_cons {a : α} {less rest : List α} (h : ∀ b ∈ less, f b ≠ f a) :
    (less ++ a :: rest).argmin f = (a :: (less ++ rest)).argmin f := by
  induction less with
  | nil => rfl
  | cons b less ih =>
    have hne := h b List.mem_cons_self
    rw [List.cons_append, List.argmin_cons, ih fun c hc => h c (List.mem_cons_of_mem _ hc),
      List.cons_append, List.argmin_cons, List.argmin_cons f a, List.argmin_cons f b]
    rcases lt_or_gt_of_ne hne with hlt | hlt
    · cases (less ++ rest).argmin f with
      | none => simp [hlt, hlt.not_gt]
      | some c =>
        by_cases hc : f c < f b
        · simp [hc, hc.trans hlt]
        · by_cases hca : f c < f a <;> simp [hc, hca, hlt, hlt.not_gt]
    · cases (less ++ rest).argmin f with
      | none => simp [hlt, hlt.not_gt]
      | some c =>
        by_cases hc : f c < f a
        · simp [hc, hc.trans hlt]
        · by_cases hcb : f c < f b <;> simp [hc, hcb, hlt, hlt.not_gt]

-- A stable sort that keeps equally good elements in their order leaves the winner as it is.
theorem argmin_mergeSort {le : α → α → Bool} (trans : ∀ a b c, le a b → le b c → le a c)
    (total : ∀ a b, le a b || le b a) (hf : ∀ a ∈ l, ∀ b ∈ l, f a = f b → le a b = true) :
    (l.mergeSort le).argmin f = l.argmin f := by
  induction l with
  | nil => simp
  | cons a l ih =>
    obtain ⟨less, rest, hs, hl, hless, -⟩ := exists_mergeSort_cons trans total a l
    have hlater := ih fun b hb c hc =>
      hf b (List.mem_cons_of_mem a hb) c (List.mem_cons_of_mem a hc)
    rw [hs, argmin_append_cons, List.argmin_cons, ← hl, hlater, ← List.argmin_cons]
    intro b hb he
    have hmem : b ∈ l := by
      rw [← List.mem_mergeSort, hl]
      exact List.mem_append_left _ hb
    have hle := hless b hb
    rw [hf a List.mem_cons_self b (List.mem_cons_of_mem a hmem) he.symm] at hle
    cases hle

theorem argmin_filterMap {γ : Type} {g : α → Option γ} {f' : γ → β}
    (hg : ∀ a c, g a = some c → f' c = f a) (l : List α) :
    (l.filterMap g).argmin f' = ((l.filter fun a => (g a).isSome).argmin f).bind g := by
  induction l with
  | nil => rfl
  | cons a l ih =>
    cases ha : g a with
    | none => simp [ha, ih]
    | some c =>
      have hsome : (g a).isSome = true := by simp [ha]
      rw [List.filterMap_cons_some ha, List.argmin_cons, ih,
        List.filter_cons_of_pos (by simpa using hsome), List.argmin_cons]
      cases hm : (l.filter fun a => (g a).isSome).argmin f with
      | none => simp [ha]
      | some m =>
        obtain ⟨d, hd⟩ := Option.isSome_iff_exists.mp (List.mem_filter.mp (List.argmin_mem hm)).2
        simp only [Option.bind_some, hd, hg a c ha, hg m d hd]
        split <;> simp [ha, hd]

end Sorting

namespace RawCapture

-- A capture can highlight bytes if its name is known and its node is not empty.
def highlights (c : RawCapture) : Bool := (Scope.number? c.name).isSome && c.start < c.stop

-- Of two captures of a byte the shorter one ranks first, of equally long ones the one that starts
-- later, and of those of one range the one of the earlier pattern.
def rank (c : RawCapture) : ℕ ×ₗ ℕᵒᵈ ×ₗ ℕ :=
  toLex (c.stop - c.start, toLex (OrderDual.toDual c.start, c.pattern))

-- The owner of a byte is the first of the captures that cover it and have the least rank.
def owner? (raw : List RawCapture) (offset : Nat) : Option RawCapture :=
  (raw.filter fun c => c.highlights && c.covers offset).argmin rank

end RawCapture

namespace Capture

variable {a b c : Capture} {cs : List Capture} {offset : Nat}

def rank (c : Capture) : ℕ ×ₗ ℕᵒᵈ ×ₗ ℕ :=
  toLex (c.length, toLex (OrderDual.toDual c.start, c.pattern))

theorem rank_lt_iff : a.rank < b.rank ↔ a.length < b.length ∨ a.length = b.length ∧
    (b.start < a.start ∨ a.start = b.start ∧ a.pattern < b.pattern) := by
  simp [rank, Prod.Lex.toLex_lt_toLex]

theorem rank_le_iff : a.rank ≤ b.rank ↔ a.length < b.length ∨ a.length = b.length ∧
    (b.start < a.start ∨ a.start = b.start ∧ a.pattern ≤ b.pattern) := by
  simp [rank, Prod.Lex.toLex_le_toLex]

theorem isSome_ofRaw? (c : RawCapture) : (ofRaw? c).isSome = c.highlights := by
  unfold ofRaw? RawCapture.highlights
  split <;> simp_all

theorem rank_of_ofRaw? {c : RawCapture} {d : Capture} (h : ofRaw? c = some d) :
    d.rank = c.rank := by
  obtain ⟨hs, he, hp⟩ := ofRaw?_eq_some h
  rw [rank, RawCapture.rank, length, hs, he, hp]

-- Two nodes with one rank are the same node.
theorem precedes_of_rank_eq (ha : a.start < a.stop) (hb : b.start < b.stop)
    (h : a.rank = b.rank) : a.precedes b = true := by
  have hab : ¬ a.rank < b.rank := by simp [h]
  have hba : ¬ b.rank < a.rank := by simp [h]
  rw [rank_lt_iff] at hab hba
  simp only [length] at hab hba
  simp only [precedes, Bool.or_eq_true, Bool.and_eq_true, beq_iff_eq, decide_eq_true_eq]
  omega

theorem rank_le_of_precedes (h : a.precedes b) (hr : b.sameRange a) : a.rank ≤ b.rank := by
  rw [sameRange_iff] at hr
  simp only [precedes, Bool.or_eq_true, Bool.and_eq_true, beq_iff_eq, decide_eq_true_eq] at h
  rw [rank_le_iff, length, length]
  omega

-- The captures that are left out lose against the first of their range.
theorem argmin_cons_drop (h : (c :: cs).Pairwise fun a b => a.precedes b = true) :
    (c :: firstOfRange.drop c cs).argmin rank = (c :: cs).argmin rank := by
  induction cs generalizing c with
  | nil => rfl
  | cons d cs ih =>
    obtain ⟨hc, htail⟩ := List.pairwise_cons.mp h
    by_cases hr : d.sameRange c
    · have hskip := ih (List.pairwise_cons.mpr
        ⟨fun b hb => hc b (List.mem_cons_of_mem _ hb), htail.of_cons⟩)
      have hle := rank_le_of_precedes (hc d List.mem_cons_self) hr
      rw [firstOfRange.drop, if_pos hr, hskip, argmin_cons_cons_of_le hle]
    · rw [firstOfRange.drop, if_neg hr, List.argmin_cons, ih htail, ← List.argmin_cons]

theorem argmin_firstOfRange (h : cs.Pairwise fun a b => a.precedes b = true) :
    (firstOfRange cs).argmin rank = cs.argmin rank := by
  cases cs with
  | nil => rfl
  | cons c cs => exact argmin_cons_drop h

theorem drop_subset (c : Capture) (cs : List Capture) : firstOfRange.drop c cs ⊆ cs := by
  induction cs generalizing c with
  | nil => exact List.Subset.refl _
  | cons d cs ih =>
    rw [firstOfRange.drop]
    split
    · exact List.subset_cons_of_subset d (ih c)
    · exact List.cons_subset_cons d (ih d)

theorem firstOfRange_subset (cs : List Capture) : firstOfRange cs ⊆ cs := by
  cases cs with
  | nil => exact List.Subset.refl _
  | cons c cs => exact List.cons_subset_cons c (drop_subset c cs)

theorem pairwise_cons_drop (h : (c :: cs).Pairwise fun a b => a.precedes b = true) :
    (c :: firstOfRange.drop c cs).Pairwise fun a b =>
      a.precedes b = true ∧ b.sameRange a = false := by
  induction cs generalizing c with
  | nil => exact List.pairwise_singleton ..
  | cons d cs ih =>
    obtain ⟨hc, htail⟩ := List.pairwise_cons.mp h
    by_cases hr : d.sameRange c
    · rw [firstOfRange.drop, if_pos hr]
      exact ih (List.pairwise_cons.mpr
        ⟨fun b hb => hc b (List.mem_cons_of_mem _ hb), htail.of_cons⟩)
    · rw [firstOfRange.drop, if_neg hr]
      refine List.pairwise_cons.mpr ⟨fun e he => ?_, ih htail⟩
      have hcd := hc d List.mem_cons_self
      have hmem : e ∈ d :: cs := List.cons_subset_cons d (drop_subset d cs) he
      refine ⟨hc e hmem, ?_⟩
      rcases List.mem_cons.mp hmem with rfl | hcs
      · simpa using hr
      · -- a later capture of the first range would have the other one between
        by_contra hsame
        have hde := (List.pairwise_cons.mp htail).1 e hcs
        exact hr (sameRange_of_between hcd hde (by simpa using hsame))

theorem pairwise_firstOfRange (h : cs.Pairwise fun a b => a.precedes b = true) :
    (firstOfRange cs).Pairwise fun a b => a.precedes b = true ∧ b.sameRange a = false := by
  cases cs with
  | nil => exact .nil
  | cons c cs => exact pairwise_cons_drop h

theorem longer_trans (a b c : Capture) (hab : decide (b.length ≤ a.length) = true)
    (hbc : decide (c.length ≤ b.length) = true) : decide (c.length ≤ a.length) = true := by
  rw [decide_eq_true_eq] at hab hbc ⊢
  exact hbc.trans hab

theorem longer_total (a b : Capture) :
    (decide (b.length ≤ a.length) || decide (a.length ≤ b.length)) = true := by
  rw [Bool.or_eq_true, decide_eq_true_eq, decide_eq_true_eq]
  exact Nat.le_total b.length a.length

-- Of captures that are equally long the last one comes first.
theorem head?_innermostFirst
    (h : cs.Pairwise fun a b => a.length = b.length → a.start < b.start) :
    (innermostFirst cs).head? = cs.argmin rank := by
  rw [innermostFirst, List.head?_reverse]
  induction cs with
  | nil => simp
  | cons c cs ih =>
    obtain ⟨hc, htail⟩ := List.pairwise_cons.mp h
    have ih := ih htail
    obtain ⟨longer, rest, hs, hl, hlonger, hrest⟩ :=
      exists_mergeSort_cons longer_trans longer_total c cs
    rw [hl] at ih
    rw [hs, List.argmin_cons, ← ih]
    cases hlast : rest.getLast? with
    | some d =>
      have hmem := List.mem_of_getLast? hlast
      have hle : d.length ≤ c.length := by simpa using hrest d hmem
      have hcs : d ∈ cs := by
        rw [← List.mem_mergeSort, hl]
        exact List.mem_append_right _ hmem
      have hlt : d.rank < c.rank := by
        have := hc d hcs
        rw [rank_lt_iff]
        omega
      simp [List.getLast?_append, List.getLast?_cons, hlast, hlt]
    | none =>
      obtain rfl := List.getLast?_eq_none_iff.mp hlast
      rw [List.getLast?_concat, List.append_nil]
      cases hend : longer.getLast? with
      | none => rfl
      | some d =>
        have hlt : c.length < d.length := by simpa using hlonger d (List.mem_of_getLast? hend)
        have hnot : ¬ d.rank < c.rank := by
          rw [rank_lt_iff]
          omega
        simp [hnot]

theorem lt_of_precedes (ha : a.start < a.stop) (hb : b.start < b.stop) (h : a.precedes b = true)
    (hr : b.sameRange a = false) (hl : a.length = b.length) : a.start < b.start := by
  rw [← Bool.not_eq_true, sameRange_iff] at hr
  simp only [precedes, Bool.or_eq_true, Bool.and_eq_true, beq_iff_eq, decide_eq_true_eq] at h
  simp only [length] at hl
  omega

theorem lt_of_ofRaw? {c : RawCapture} {d : Capture} (h : ofRaw? c = some d) :
    d.start < d.stop := by
  obtain ⟨hs, he, -⟩ := ofRaw?_eq_some h
  rw [hs, he]
  by_contra hnot
  simp [ofRaw?, hnot] at h

-- Sorting twice and dropping what is not the first of its range finds the capture of least rank.
theorem head?_innermostFirst_ofRawList (raw : List RawCapture) :
    (innermostFirst (ofRawList raw)).head? =
      ((raw.filter RawCapture.highlights).argmin RawCapture.rank).bind ofRaw? := by
  have hfilter : raw.filter RawCapture.highlights = raw.filter fun c => (ofRaw? c).isSome :=
    List.filter_congr fun c _ => (isSome_ofRaw? c).symm
  have hsorted := List.pairwise_mergeSort precedes_trans precedes_total (raw.filterMap ofRaw?)
  have hmem : ∀ d ∈ raw.filterMap ofRaw?, d.start < d.stop := by
    intro d hd
    obtain ⟨c, -, hc⟩ := List.mem_filterMap.mp hd
    exact lt_of_ofRaw? hc
  have hkept : ∀ d ∈ firstOfRange ((raw.filterMap ofRaw?).mergeSort precedes),
      d.start < d.stop :=
    fun d hd => hmem d (List.mem_mergeSort.mp (firstOfRange_subset _ hd))
  rw [ofRawList, head?_innermostFirst, argmin_firstOfRange hsorted,
    argmin_mergeSort precedes_trans precedes_total, argmin_filterMap, hfilter]
  · exact fun _ _ h => rank_of_ofRaw? h
  · exact fun a ha b hb h => precedes_of_rank_eq (hmem a ha) (hmem b hb) h
  · refine (pairwise_firstOfRange hsorted).imp_of_mem fun ha hb h hl => ?_
    exact lt_of_precedes (hkept _ ha) (hkept _ hb) h.1 h.2 hl

end Capture

namespace RawCapture

variable {raw raw' : List RawCapture} {c d : RawCapture} {i j : Nat}

theorem mem_of_owner? (h : owner? raw i = some c) :
    c ∈ raw ∧ c.highlights = true ∧ c.covers i = true := by
  have hmem := List.mem_filter.mp (List.argmin_mem h)
  rw [Bool.and_eq_true] at hmem
  exact hmem

theorem owner?_eq_none_iff : owner? raw i = none ↔
    ∀ c ∈ raw, c.highlights = true → c.covers i = false := by
  rw [owner?, List.argmin_eq_none, List.filter_eq_nil_iff]
  simp

def window (c : RawCapture) : Window := ⟨c.start, c.stop⟩

theorem covers_congr (h : c.window = d.window) (offset : Nat) :
    c.covers offset = d.covers offset := by
  obtain ⟨hs, he⟩ := Window.mk.inj h
  rw [covers, covers, hs, he]

-- The owner of a byte is what it is among some captures of its own range.
theorem argmin_of_owner? {q : RawCapture → Bool} (h : owner? raw i = some c) (hc : q c = true)
    (hq : ∀ d, q d = true → d.window = c.window) :
    (raw.filter fun d => d.highlights && q d).argmin rank = some c := by
  rw [← argmin_filter h hc, List.filter_filter]
  congr 1
  apply List.filter_congr
  intro d _
  cases hd : q d with
  | false => simp
  | true => simp [covers_congr (hq d hd), (mem_of_owner? h).2.2]

-- Two bytes whose owners have one range have one owner.
theorem owner?_eq_of_window_eq
    (h : (owner? raw i).map window = (owner? raw j).map window) : owner? raw i = owner? raw j := by
  cases hi : owner? raw i with
  | none =>
    rw [hi] at h
    exact (Option.map_eq_none_iff.mp h.symm).symm
  | some c =>
    rw [hi] at h
    obtain ⟨d, hd, hw⟩ := Option.map_eq_some_iff.mp h.symm
    have hic := argmin_of_owner? (q := fun e => e.window == c.window) hi (by simp) (by simp)
    have hjd := argmin_of_owner? (q := fun e => e.window == c.window) hd (by simp [hw])
      (by simp [hw])
    rw [hd, ← hic, ← hjd]

-- A byte before which no capture starts or ends has the owner of the byte before it.
theorem owner?_succ (h : ∀ c ∈ raw, c.start ≠ i + 1 ∧ c.stop ≠ i + 1) :
    owner? raw (i + 1) = owner? raw i := by
  rw [owner?, owner?]
  congr 1
  apply List.filter_congr
  intro c hc
  obtain ⟨hs, he⟩ := h c hc
  have hcovers : c.covers (i + 1) = c.covers i := by
    rw [Bool.eq_iff_iff]
    simp only [covers, Bool.and_eq_true, decide_eq_true_eq]
    omega
  rw [hcovers]

theorem node_eq_of_rank_eq (hc : c.highlights = true) (hd : d.highlights = true)
    (h : c.rank = d.rank) : c.window = d.window ∧ c.pattern = d.pattern := by
  simp only [highlights, Bool.and_eq_true, decide_eq_true_eq] at hc hd
  simp only [rank, EmbeddingLike.apply_eq_iff_eq, Prod.mk.injEq] at h
  simp only [window, Window.mk.injEq]
  omega

def isOf (w node : Window) (pattern : Nat) (c : RawCapture) : Bool :=
  c.overlaps w && c.window == node && c.pattern == pattern

theorem isOf_iff {w node : Window} {pattern : Nat} :
    c.isOf w node pattern = true ↔
      c.overlaps w = true ∧ c.window = node ∧ c.pattern = pattern := by
  simp [isOf, and_assoc]

-- Two lists that tell the same of a window: each node in it is captured by the same patterns, and
-- what one pattern calls it comes in the same order.
def SameNodes (w : Window) (raw raw' : List RawCapture) : Prop :=
  ∀ node pattern, raw.filter (fun c => c.highlights && c.isOf w node pattern) =
    raw'.filter fun c => c.highlights && c.isOf w node pattern

variable {w : Window}

theorem SameNodes.symm (h : SameNodes w raw raw') : SameNodes w raw' raw :=
  fun node pattern => (h node pattern).symm

theorem SameNodes.mem (h : SameNodes w raw raw') (hm : c ∈ raw) (hc : c.highlights = true)
    (hw : c.overlaps w = true) : c ∈ raw' := by
  have hmem : c ∈ raw.filter fun d => d.highlights && d.isOf w c.window c.pattern :=
    List.mem_filter.mpr ⟨hm, by simp [hc, isOf, hw]⟩
  rw [h] at hmem
  exact (List.mem_filter.mp hmem).1

theorem SameNodes.owner?_eq_some (h : SameNodes w raw raw') (hs : w.start ≤ i) (he : i < w.stop)
    (hc : owner? raw i = some c) : owner? raw' i = some c := by
  obtain ⟨hm, hhl, hi⟩ := mem_of_owner? hc
  have hcw := overlaps_of_covers hi hs he
  have hm' := h.mem hm hhl hcw
  cases hd : owner? raw' i with
  | none =>
    rw [owner?_eq_none_iff.mp hd c hm' hhl] at hi
    cases hi
  | some d =>
    obtain ⟨hdm', hdhl, hdi⟩ := mem_of_owner? hd
    have hdw := overlaps_of_covers hdi hs he
    have hdm := h.symm.mem hdm' hdhl hdw
    have hle : c.rank ≤ d.rank :=
      List.le_of_mem_argmin (List.mem_filter.mpr ⟨hdm, by simp [hdhl, hdi]⟩) hc
    have hge : d.rank ≤ c.rank :=
      List.le_of_mem_argmin (List.mem_filter.mpr ⟨hm', by simp [hhl, hi]⟩) hd
    obtain ⟨hw, hp⟩ := node_eq_of_rank_eq hdhl hhl (le_antisymm hge hle)
    have hfirst := argmin_of_owner? hc (isOf_iff.mpr ⟨hcw, rfl, rfl⟩)
      fun e he => (isOf_iff.mp he).2.1
    have hfirst' := argmin_of_owner? hd (isOf_iff.mpr ⟨hdw, hw, hp⟩)
      fun e he => (isOf_iff.mp he).2.1.trans hw.symm
    rw [← hfirst', ← h, hfirst]

theorem SameNodes.owner?_eq (h : SameNodes w raw raw') (hs : w.start ≤ i) (he : i < w.stop) :
    owner? raw i = owner? raw' i :=
  Option.ext fun _ => ⟨h.owner?_eq_some hs he, h.symm.owner?_eq_some hs he⟩

end RawCapture

namespace Segment

-- What the captures of a window paint a byte with is its owner.
theorem ownerAt_eq_owner? (raw : List RawCapture) (offset : Nat) :
    ownerAt (Capture.innermostFirst (Capture.ofRawList raw)) offset =
      (RawCapture.owner? raw offset).bind Capture.ofRaw? := by
  rw [ownerAt_innermostFirst, Capture.filter_ofRawList, Capture.head?_innermostFirst_ofRawList,
    List.filter_filter]
  rfl

end Segment

end SyntaxStream
