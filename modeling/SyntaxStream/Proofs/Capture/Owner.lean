import SyntaxStream.Segment
import Mathlib.Data.List.Basic

namespace SyntaxStream

section Sorting

variable {α : Type}

-- A list falls into the elements that satisfy q and those that do not in only one way.
theorem append_inj_of_separated (q : α → Bool) {xs ys xs' ys' : List α}
    (h : xs ++ ys = xs' ++ ys') (hx : ∀ x ∈ xs, q x = true) (hy : ∀ y ∈ ys, q y = false)
    (hx' : ∀ x ∈ xs', q x = true) (hy' : ∀ y ∈ ys', q y = false) : xs = xs' ∧ ys = ys' := by
  have hn : ys.filter q = [] := List.filter_eq_nil_iff.mpr fun y hm => by simp [hy y hm]
  have hn' : ys'.filter q = [] := List.filter_eq_nil_iff.mpr fun y hm => by simp [hy' y hm]
  have hf := congrArg (List.filter q) h
  rw [List.filter_append, List.filter_append, List.filter_eq_self.mpr hx,
    List.filter_eq_self.mpr hx', hn, hn', List.append_nil, List.append_nil] at hf
  subst hf
  exact ⟨rfl, List.append_cancel_left h⟩

-- Where the first element goes in a stable sort: behind all that are less than it.
theorem exists_mergeSort_cons {le : α → α → Bool} (trans : ∀ a b c, le a b → le b c → le a c)
    (total : ∀ a b, le a b || le b a) (a : α) (l : List α) :
    ∃ less rest, (a :: l).mergeSort le = less ++ a :: rest ∧ l.mergeSort le = less ++ rest ∧
      (∀ b ∈ less, (!le a b) = true) ∧ ∀ b ∈ rest, (!le a b) = false := by
  obtain ⟨less, rest, hs, hl, hless⟩ := List.mergeSort_cons trans total a l
  have hp := List.pairwise_mergeSort trans total (a :: l)
  rw [hs] at hp
  have hrest := (List.pairwise_cons.mp (List.pairwise_append.mp hp).2.1).1
  exact ⟨less, rest, hs, hl, hless, fun b hb => by simp [hrest b hb]⟩

-- A stable sort commutes with leaving elements out.
theorem filter_mergeSort {le : α → α → Bool} (trans : ∀ a b c, le a b → le b c → le a c)
    (total : ∀ a b, le a b || le b a) (p : α → Bool) (l : List α) :
    (l.mergeSort le).filter p = (l.filter p).mergeSort le := by
  induction l with
  | nil => simp
  | cons a l ih =>
    obtain ⟨less, rest, hs, hl, hless, hrest⟩ := exists_mergeSort_cons trans total a l
    rw [hl, List.filter_append] at ih
    rw [hs, List.filter_append]
    by_cases hp : p a
    · rw [List.filter_cons_of_pos hp, List.filter_cons_of_pos hp]
      obtain ⟨less', rest', hs', hl', hless', hrest'⟩ :=
        exists_mergeSort_cons trans total a (l.filter p)
      obtain ⟨hl₁, hl₂⟩ := append_inj_of_separated (fun b => !le a b) (ih.trans hl')
        (fun b hb => hless b (List.mem_filter.mp hb).1)
        (fun b hb => hrest b (List.mem_filter.mp hb).1) hless' hrest'
      rw [hs', hl₁, hl₂]
    · rw [List.filter_cons_of_neg hp, List.filter_cons_of_neg hp, ih]

end Sorting

namespace RawCapture

def covers (c : RawCapture) (offset : Nat) : Bool := c.start ≤ offset && offset < c.stop

theorem overlaps_of_covers {c : RawCapture} {w : Window} {offset : Nat} (h : c.covers offset)
    (hs : w.start ≤ offset) (he : offset < w.stop) : c.overlaps w := by
  simp only [covers, overlaps, Bool.and_eq_true, decide_eq_true_eq] at h ⊢
  omega

end RawCapture

namespace Capture

theorem precedes_trans (a b c : Capture) (hab : a.precedes b) (hbc : b.precedes c) :
    a.precedes c := by
  simp only [precedes, Bool.or_eq_true, Bool.and_eq_true, beq_iff_eq, decide_eq_true_eq]
    at hab hbc ⊢
  omega

theorem precedes_total (a b : Capture) : a.precedes b || b.precedes a := by
  simp only [precedes, Bool.or_eq_true, Bool.and_eq_true, beq_iff_eq, decide_eq_true_eq]
  omega

theorem sameRange_iff {a b : Capture} : a.sameRange b ↔ a.start = b.start ∧ a.stop = b.stop := by
  simp [sameRange]

-- Between two captures of one range there is none of another.
theorem sameRange_of_between {a b c : Capture} (hab : a.precedes b) (hbc : b.precedes c)
    (h : c.sameRange a) : b.sameRange a := by
  rw [sameRange_iff] at h ⊢
  simp only [precedes, Bool.or_eq_true, Bool.and_eq_true, beq_iff_eq, decide_eq_true_eq]
    at hab hbc
  omega

theorem drop_eq_firstOfRange {last : Capture} {cs : List Capture}
    (h : ∀ c ∈ cs, c.sameRange last = false) : firstOfRange.drop last cs = firstOfRange cs := by
  cases cs with
  | nil => rfl
  | cons c cs => simp [firstOfRange, firstOfRange.drop, h c List.mem_cons_self]

section Filter

variable {p : Capture → Bool} (hp : ∀ a b : Capture, a.sameRange b → p a = p b)

include hp

theorem filter_drop {last : Capture} {cs : List Capture}
    (hs : (last :: cs).Pairwise fun a b => a.precedes b = true) :
    (firstOfRange.drop last cs).filter p =
      if p last then firstOfRange.drop last (cs.filter p) else firstOfRange (cs.filter p) := by
  induction cs generalizing last with
  | nil => cases p last <;> rfl
  | cons c cs ih =>
    obtain ⟨hlast, htail⟩ := List.pairwise_cons.mp hs
    by_cases hr : c.sameRange last
    · have hskip := ih (List.pairwise_cons.mpr
        ⟨fun b hb => hlast b (List.mem_cons_of_mem _ hb), htail.of_cons⟩)
      simp only [firstOfRange.drop, hr, if_true, hskip]
      have he := hp c last hr
      cases hl : p last <;> simp [he, hl, firstOfRange.drop, hr]
    · have hnext := ih htail
      rw [firstOfRange.drop, if_neg hr]
      cases hc : p c with
      | true =>
        rw [hc, if_pos rfl] at hnext
        rw [List.filter_cons_of_pos hc, List.filter_cons_of_pos hc, hnext]
        cases hl : p last <;> simp [firstOfRange, firstOfRange.drop, hr]
      | false =>
        rw [hc, if_neg (by simp)] at hnext
        rw [List.filter_cons_of_neg (by simp [hc]), List.filter_cons_of_neg (by simp [hc]), hnext]
        cases hl : p last with
        | false => simp
        | true =>
          -- no later capture has the range of the last one, for this one stands between
          rw [if_pos rfl, drop_eq_firstOfRange]
          intro d hd
          have hcd := (List.pairwise_cons.mp htail).1 d (List.mem_filter.mp hd).1
          by_contra hne
          exact hr (sameRange_of_between (hlast c List.mem_cons_self) hcd (by simpa using hne))

theorem filter_firstOfRange {cs : List Capture}
    (hs : cs.Pairwise fun a b => a.precedes b = true) :
    (firstOfRange cs).filter p = firstOfRange (cs.filter p) := by
  cases cs with
  | nil => rfl
  | cons c cs =>
    have hd := filter_drop hp hs
    cases hc : p c with
    | true =>
      rw [hc, if_pos rfl] at hd
      rw [firstOfRange, List.filter_cons_of_pos hc, List.filter_cons_of_pos hc, hd, firstOfRange]
    | false =>
      rw [hc, if_neg (by simp)] at hd
      rw [firstOfRange, List.filter_cons_of_neg (by simp [hc]),
        List.filter_cons_of_neg (by simp [hc]), hd]

end Filter

theorem ofRaw?_eq_some {c : RawCapture} {d : Capture} (h : ofRaw? c = some d) :
    d.start = c.start ∧ d.stop = c.stop ∧ d.pattern = c.pattern := by
  unfold ofRaw? at h
  split at h
  · obtain ⟨highlight, -, rfl⟩ := Option.map_eq_some_iff.mp h
    exact ⟨rfl, rfl, rfl⟩
  · cases h

theorem filterMap_ofRaw?_filter (offset : Nat) (raw : List RawCapture) :
    (raw.filterMap ofRaw?).filter (·.covers offset) =
      (raw.filter (·.covers offset)).filterMap ofRaw? := by
  induction raw with
  | nil => rfl
  | cons c raw ih =>
    have hc : ∀ d, ofRaw? c = some d → d.covers offset = c.covers offset := by
      intro d hd
      obtain ⟨hs, he, -⟩ := ofRaw?_eq_some hd
      rw [covers, RawCapture.covers, hs, he]
    cases hd : ofRaw? c <;> cases hv : c.covers offset <;>
      simp_all

-- What covers a byte is found the same way whether or not the rest is listed.
theorem filter_ofRawList (offset : Nat) (raw : List RawCapture) :
    (ofRawList raw).filter (·.covers offset) = ofRawList (raw.filter (·.covers offset)) := by
  have hp : ∀ a b : Capture, a.sameRange b → a.covers offset = b.covers offset := by
    intro a b h
    obtain ⟨hs, he⟩ := sameRange_iff.mp h
    rw [covers, covers, hs, he]
  have hs := List.pairwise_mergeSort precedes_trans precedes_total (raw.filterMap ofRaw?)
  rw [ofRawList, filter_firstOfRange hp hs, filter_mergeSort precedes_trans precedes_total,
    filterMap_ofRaw?_filter, ofRawList]

@[simp] theorem innermostFirst_nil : innermostFirst [] = [] := by
  simp [innermostFirst]

theorem filter_innermostFirst (p : Capture → Bool) (cs : List Capture) :
    (innermostFirst cs).filter p = innermostFirst (cs.filter p) := by
  simp only [innermostFirst, List.filter_reverse]
  rw [filter_mergeSort]
  · intro a b c hab hbc
    simp only [decide_eq_true_eq] at hab hbc ⊢
    omega
  · intro a b
    simp only [Bool.or_eq_true, decide_eq_true_eq]
    omega

end Capture

namespace Segment

theorem ownerAt_innermostFirst (cs : List Capture) (offset : Nat) :
    ownerAt (Capture.innermostFirst cs) offset =
      (Capture.innermostFirst (cs.filter (·.covers offset))).head? := by
  rw [ownerAt, ← List.head?_filter, Capture.filter_innermostFirst]

theorem ownerAt_congr {raw raw' : List RawCapture} {offset : Nat}
    (h : raw.filter (·.covers offset) = raw'.filter (·.covers offset)) :
    ownerAt (Capture.innermostFirst (Capture.ofRawList raw)) offset =
      ownerAt (Capture.innermostFirst (Capture.ofRawList raw')) offset := by
  rw [ownerAt_innermostFirst, ownerAt_innermostFirst, Capture.filter_ofRawList,
    Capture.filter_ofRawList, h]

theorem ownerAt_filter_overlaps (raw : List RawCapture) {w : Window} {offset : Nat}
    (hs : w.start ≤ offset) (he : offset < w.stop) :
    ownerAt (Capture.innermostFirst (Capture.ofRawList (raw.filter (·.overlaps w)))) offset =
      ownerAt (Capture.innermostFirst (Capture.ofRawList raw)) offset := by
  apply ownerAt_congr
  rw [List.filter_filter]
  apply List.filter_congr
  intro c _
  cases hc : c.covers offset with
  | false => rfl
  | true => simp [RawCapture.overlaps_of_covers hc hs he]

end Segment

end SyntaxStream
