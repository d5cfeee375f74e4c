import SyntaxStream.Scope
import Mathlib.Data.List.Basic
import Mathlib.Data.List.Nodup

namespace SyntaxStream

theorem findSome?_congr {α β : Type} {f g : α → Option β} {xs : List α}
    (h : ∀ x ∈ xs, f x = g x) : xs.findSome? f = xs.findSome? g := by
  induction xs with
  | nil => rfl
  | cons x xs ih =>
    rw [List.findSome?_cons, List.findSome?_cons, h x List.mem_cons_self,
      ih fun y hy => h y (List.mem_cons_of_mem _ hy)]

namespace Scope

variable {name parent other : String}

-- A name cut at its last dot.
def Cut (name parent : String) : Prop :=
  ∃ last : String, '.' ∉ last.toList ∧ name = parent ++ "." ++ last

-- A name is its own ancestor, and cutting an ancestor gives another.
inductive Ancestor (name : String) : String → Prop
  | self : Ancestor name name
  | cut {nearer farther : String} : Ancestor name nearer → Cut nearer farther →
      Ancestor name farther

theorem cuts_append_of_notMem {last rest : List Char} (h : '.' ∉ last) :
    cuts (last ++ rest) = cuts rest := by
  induction last with
  | nil => rfl
  | cons c last ih =>
    rw [List.mem_cons, not_or] at h
    rw [List.cons_append, cuts, ih h.2]
    exact fun hc => h.1 hc.symm

theorem ancestors_of_cut (h : Cut name parent) : ancestors name = name :: ancestors parent := by
  obtain ⟨last, hlast, rfl⟩ := h
  have hreverse : (parent ++ "." ++ last).toList.reverse =
      last.toList.reverse ++ '.' :: parent.toList.reverse := by
    simp
  unfold ancestors
  rw [hreverse, cuts_append_of_notMem (by simpa using hlast), cuts, List.reverse_reverse,
    List.map_cons, String.ofList_toList]

theorem ancestors_of_notMem (h : '.' ∉ name.toList) : ancestors name = [name] := by
  unfold ancestors
  rw [← List.append_nil name.toList.reverse, cuts_append_of_notMem (by simpa using h)]
  rfl

theorem exists_cut (h : '.' ∈ name.toList) : ∃ parent, Cut name parent := by
  obtain ⟨last, before, hsplit, hlast⟩ := List.eq_append_cons_of_mem (List.mem_reverse.mpr h)
  refine ⟨String.ofList before.reverse, String.ofList last.reverse, by simpa using hlast, ?_⟩
  rw [String.ext_iff, ← List.reverse_reverse name.toList, hsplit]
  simp

theorem length_of_cut (h : Cut name parent) : parent.length < name.length := by
  obtain ⟨last, -, rfl⟩ := h
  have hdot : (".").length = 1 := rfl
  rw [String.length_append, String.length_append, hdot]
  omega

-- Names go by their parents: each either has no dot, or is cut to a shorter one.
theorem cut_induction {motive : String → Prop}
    (undotted : ∀ name, '.' ∉ name.toList → motive name)
    (dotted : ∀ name parent, Cut name parent → motive parent → motive name) (name : String) :
    motive name := by
  induction hn : name.length using Nat.strongRecOn generalizing name with
  | ind n ih =>
    subst hn
    by_cases hdot : '.' ∈ name.toList
    · obtain ⟨parent, hcut⟩ := exists_cut hdot
      exact dotted name parent hcut (ih parent.length (length_of_cut hcut) parent rfl)
    · exact undotted name hdot

theorem cut_unique (h : Cut name parent) (h' : Cut name other) : parent = other := by
  have hsame := (ancestors_of_cut h).symm.trans (ancestors_of_cut h')
  injection (List.cons.inj hsame).2

theorem not_cut_of_notMem (h : '.' ∉ name.toList) : ¬ Cut name parent := by
  rintro ⟨last, -, rfl⟩
  simp at h

namespace Ancestor

-- An ancestor by way of the first cut.
theorem of_cut (hcut : Cut name parent) (h : Ancestor parent other) : Ancestor name other := by
  induction h with
  | self => exact .cut .self hcut
  | cut _ hfarther ih => exact .cut ih hfarther

theorem eq_or_of_cut (hcut : Cut name parent) (h : Ancestor name other) :
    other = name ∨ Ancestor parent other := by
  induction h with
  | self => exact Or.inl rfl
  | cut _ hfarther ih =>
    rcases ih with rfl | hnearer
    · exact Or.inr (cut_unique hcut hfarther ▸ .self)
    · exact Or.inr (.cut hnearer hfarther)

theorem eq_of_notMem (hdot : '.' ∉ name.toList) (h : Ancestor name other) : other = name := by
  induction h with
  | self => rfl
  | cut _ hfarther ih => exact absurd (ih ▸ hfarther) (not_cut_of_notMem hdot)

end Ancestor

theorem mem_ancestors_iff : other ∈ ancestors name ↔ Ancestor name other := by
  induction name using cut_induction with
  | undotted name hdot =>
    rw [ancestors_of_notMem hdot, List.mem_singleton]
    constructor
    · rintro rfl
      exact .self
    · exact Ancestor.eq_of_notMem hdot
  | dotted name parent hcut ih =>
    rw [ancestors_of_cut hcut, List.mem_cons, ih]
    constructor
    · rintro (rfl | hparent)
      · exact .self
      · exact .of_cut hcut hparent
    · exact Ancestor.eq_or_of_cut hcut

theorem Ancestor.length_le (h : Ancestor name other) : other.length ≤ name.length := by
  induction h with
  | self => exact Nat.le_refl _
  | cut _ hfarther ih => exact Nat.le_trans (Nat.le_of_lt (length_of_cut hfarther)) ih

-- The ancestors stand by their lengths, the longest first.
theorem pairwise_ancestors (name : String) :
    (ancestors name).Pairwise fun a b => b.length < a.length := by
  induction name using cut_induction with
  | undotted name hdot =>
    rw [ancestors_of_notMem hdot]
    exact List.pairwise_singleton _ _
  | dotted name parent hcut ih =>
    rw [ancestors_of_cut hcut]
    refine List.Pairwise.cons ?_ ih
    intro farther hfarther
    exact Nat.lt_of_le_of_lt (mem_ancestors_iff.mp hfarther).length_le (length_of_cut hcut)

theorem Ancestor.eq_of_length_eq {a b : String} (ha : Ancestor name a) (hb : Ancestor name b)
    (h : a.length = b.length) : a = b := by
  have hnodup : ((ancestors name).map String.length).Nodup := by
    apply List.pairwise_map.mpr
    exact (pairwise_ancestors name).imp fun hlt => Nat.ne_of_gt hlt
  exact List.inj_on_of_nodup_map hnodup (mem_ancestors_iff.mpr ha) (mem_ancestors_iff.mpr hb) h

-- The first ancestor with a value is the longest one.
theorem findSome?_ancestors {α : Type} {f : String → Option α} {value : α} :
    (ancestors name).findSome? f = some value ↔
      ∃ nearest, Ancestor name nearest ∧ f nearest = some value ∧
        ∀ other, Ancestor name other → (f other).isSome → other.length ≤ nearest.length := by
  rw [List.findSome?_eq_some_iff]
  have hpairwise := pairwise_ancestors name
  constructor
  · rintro ⟨longer, nearest, shorter, hsplit, hvalue, hnone⟩
    refine ⟨nearest, mem_ancestors_iff.mp (by simp [hsplit]), hvalue, ?_⟩
    intro other hother hsome
    rw [hsplit, List.pairwise_append, List.pairwise_cons] at hpairwise
    rw [← mem_ancestors_iff, hsplit, List.mem_append, List.mem_cons] at hother
    rcases hother with hlonger | rfl | hshorter
    · rw [hnone other hlonger] at hsome
      cases hsome
    · exact Nat.le_refl _
    · exact Nat.le_of_lt (hpairwise.2.1.1 other hshorter)
  · rintro ⟨nearest, hnearest, hvalue, hlongest⟩
    obtain ⟨longer, shorter, hsplit⟩ := List.append_of_mem (mem_ancestors_iff.mpr hnearest)
    refine ⟨longer, nearest, shorter, hsplit, hvalue, ?_⟩
    intro other hother
    rw [hsplit, List.pairwise_append] at hpairwise
    have hlt := hpairwise.2.2 other hother nearest List.mem_cons_self
    have hmem : other ∈ ancestors name := by simp [hsplit, hother]
    rw [← Option.not_isSome_iff_eq_none]
    intro hsome
    exact absurd (hlongest other (mem_ancestors_iff.mp hmem) hsome) (Nat.not_le.mpr hlt)

-- The vocabulary has all ancestors of its names.
theorem ancestors_subset_names (h : name ∈ names) : ancestors name ⊆ names := by
  have hall : names.all fun name => (ancestors name).all names.contains := by decide +kernel
  intro farther hfarther
  have hknown := List.all_eq_true.mp (List.all_eq_true.mp hall name h) farther hfarther
  exact List.contains_iff_mem.mp hknown

-- A name of the vocabulary is the nearest one to itself.
theorem known_of_mem (h : name ∈ names) : (number? name).bind name? = some name := by
  obtain ⟨n, hn⟩ := Option.ne_none_iff_exists'.mp (mt List.idxOf?_eq_none_iff.mp (not_not.mpr h))
  obtain ⟨hlt, hname, -⟩ := List.idxOf?_eq_some_iff.mp hn
  have hnumber : number? name = some n := by
    simp only [number?, ancestors, List.findSome?_cons, hn]
  rw [hnumber, Option.bind_some]
  exact List.getElem?_eq_some_iff.mpr ⟨hlt, hname⟩

theorem number?_lt {n : Nat} (h : number? name = some n) : n < names.length := by
  obtain ⟨ancestor, -, hn⟩ := List.exists_of_findSome?_eq_some h
  exact (List.idxOf?_eq_some_iff.mp hn).1

theorem number?_of_cut (h : name ∉ names) (hcut : Cut name parent) :
    number? name = number? parent := by
  unfold number?
  rw [ancestors_of_cut hcut, List.findSome?_cons, List.idxOf?_eq_none_iff.mpr h]

theorem number?_eq_none (h : name ∉ names) (hdot : '.' ∉ name.toList) : number? name = none := by
  unfold number?
  rw [ancestors_of_notMem hdot, List.findSome?_cons, List.idxOf?_eq_none_iff.mpr h]
  rfl

-- What an ancestor in the vocabulary has to offer.
def offered {α : Type} (f : String → Option α) (name : String) : Option α :=
  if name ∈ names then f name else none

theorem offered_of_notMem {α : Type} {f : String → Option α} (h : name ∉ names) :
    offered f name = none :=
  if_neg h

theorem findSome?_known_of_mem {α : Type} (f : String → Option α) (h : name ∈ names) :
    ((number? name).bind name?).bind (fun known => (ancestors known).findSome? f) =
      (ancestors name).findSome? (offered f) := by
  rw [known_of_mem h, Option.bind_some]
  apply findSome?_congr
  intro farther hfarther
  exact (if_pos (ancestors_subset_names h hfarther)).symm

-- To look for an ancestor in the vocabulary, and then for an ancestor of that one which has a
-- value, is to look for an ancestor that is both.
theorem findSome?_known {α : Type} (f : String → Option α) (name : String) :
    ((number? name).bind name?).bind (fun known => (ancestors known).findSome? f) =
      (ancestors name).findSome? (offered f) := by
  induction name using cut_induction with
  | undotted name hdot =>
    by_cases hknown : name ∈ names
    · exact findSome?_known_of_mem f hknown
    · rw [number?_eq_none hknown hdot, ancestors_of_notMem hdot, List.findSome?_cons,
        offered_of_notMem hknown]
      rfl
  | dotted name parent hcut ih =>
    by_cases hknown : name ∈ names
    · exact findSome?_known_of_mem f hknown
    · rw [number?_of_cut hknown hcut, ih, ancestors_of_cut hcut, List.findSome?_cons,
        offered_of_notMem hknown]

end Scope

end SyntaxStream
