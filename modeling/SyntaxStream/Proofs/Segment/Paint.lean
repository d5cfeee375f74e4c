import SyntaxStream.Segment
import SyntaxStream.Proofs.Capture.Owner
import SyntaxStream.Proofs.Segment.Tiling
import Mathlib.Data.List.SplitBy

namespace SyntaxStream.Segment

open Text

variable {bytes : List Cell} {ranked : List Capture} {a b c : Nat}

theorem length_painted (hb : b ≤ bytes.length) :
    (painted bytes ⟨a, b⟩ ranked).length = b - a := by
  simp only [painted, List.length_map, List.length_zipIdx, length_between hb]

theorem painted_of_le (h : b ≤ a) : painted bytes ⟨a, b⟩ ranked = [] := by
  simp [painted, between, Nat.sub_eq_zero_of_le h]

theorem painted_append (hab : a ≤ b) (hbc : b ≤ c) (hc : c ≤ bytes.length) :
    painted bytes ⟨a, c⟩ ranked = painted bytes ⟨a, b⟩ ranked ++ painted bytes ⟨b, c⟩ ranked := by
  simp only [painted, between_append bytes hab hbc, List.zipIdx_append, List.map_append,
    length_between (hbc.trans hc), Nat.add_sub_cancel' hab]

theorem painted_eq_cons (hab : a < b) (hb : b ≤ bytes.length) :
    painted bytes ⟨a, b⟩ ranked =
      ⟨a, bytes[a], ownerAt ranked a⟩ :: painted bytes ⟨a + 1, b⟩ ranked := by
  rw [painted_append (Nat.le_succ a) hab hb]
  have hone : between bytes a (a + 1) = [bytes[a]] := by
    rw [between, List.drop_eq_getElem_cons (by omega), Nat.add_sub_cancel_left]
    rfl
  simp [painted, hone]

theorem head_of_painted_eq_cons {p : Painted} {rest : List Painted} (hb : b ≤ bytes.length)
    (h : painted bytes ⟨a, b⟩ ranked = p :: rest) : p.offset = a ∧ bytes[a]? = some p.cell := by
  have hl := congrArg List.length h
  rw [length_painted hb, List.length_cons] at hl
  rw [painted_eq_cons (by omega) hb] at h
  obtain ⟨rfl, -⟩ := List.cons_eq_cons.mp h
  exact ⟨rfl, List.getElem?_eq_getElem _⟩

theorem painted_congr {ranked' : List Capture}
    (h : ∀ offset, a ≤ offset → offset < b → ownerAt ranked offset = ownerAt ranked' offset)
    (hb : b ≤ bytes.length) : painted bytes ⟨a, b⟩ ranked = painted bytes ⟨a, b⟩ ranked' := by
  simp only [painted]
  apply List.map_congr_left
  rintro ⟨cell, offset⟩ hm
  obtain ⟨hs, he, -⟩ := List.mem_zipIdx hm
  rw [length_between hb] at he
  rw [h offset hs (by omega)]

-- A run at the start of a window, and the runs that remain.
theorem flatten_cons_eq_painted {run : List Painted} {runs : List (List Painted)}
    (hb : b ≤ bytes.length) (h : (run :: runs).flatten = painted bytes ⟨a, b⟩ ranked) :
    run.length ≤ b - a ∧ run = painted bytes ⟨a, a + run.length⟩ ranked ∧
      runs.flatten = painted bytes ⟨a + run.length, b⟩ ranked := by
  have hl := congrArg List.length h
  rw [length_painted hb, List.flatten_cons, List.length_append] at hl
  by_cases hab : a ≤ b
  · rw [painted_append (b := a + run.length) (by omega) (by omega) hb, List.flatten_cons] at h
    obtain ⟨hrun, hruns⟩ := List.append_inj h (by rw [length_painted (by omega)]; omega)
    exact ⟨by omega, hrun, hruns⟩
  · have hrun : run = [] := List.length_eq_zero_iff.mp (by omega)
    subst hrun
    exact ⟨by simp, by simp [painted, between], by simpa using h⟩

-- The last byte of each run does not belong together with the first byte of the next.
def Separated (runs : List (List Painted)) : Prop :=
  runs.IsChain fun g g' => ∃ hg hg', (g.getLast hg).joins (g'.head hg') = false

theorem opens_of_not_joins {p q : Painted} (h : p.joins q = false) : q.cell.opens = true := by
  simp only [Painted.joins, Bool.not_eq_false', Bool.and_eq_true] at h
  exact h.1

-- What follows a run starts with a character, or it is the end.
theorem isBoundary_of_separated {run : List Painted} {runs : List (List Painted)}
    (hab : a ≤ b) (hb : isBoundary bytes b) (hf : runs.flatten = painted bytes ⟨a, b⟩ ranked)
    (hs : Separated (run :: runs)) : isBoundary bytes a := by
  have hlen := le_length_of_isBoundary hb
  cases runs with
  | nil =>
    have hl := congrArg List.length hf
    rw [length_painted hlen, List.flatten_nil, List.length_nil] at hl
    exact Nat.le_antisymm hab (Nat.le_of_sub_eq_zero hl.symm) ▸ hb
  | cons next runs =>
    obtain ⟨_, hnext, hj⟩ := (List.isChain_cons_cons.mp hs).1
    obtain ⟨p, rest, rfl⟩ := List.exists_cons_of_ne_nil hnext
    obtain ⟨-, hc⟩ := head_of_painted_eq_cons hlen hf.symm
    have ho := opens_of_not_joins hj
    simp only [List.head_cons] at ho
    simp [isBoundary, hc, ho]

theorem tiles_of_runs {runs : List (List Painted)} (hab : a ≤ b) (hb : isBoundary bytes b)
    (hf : runs.flatten = painted bytes ⟨a, b⟩ ranked) (hn : ∀ run ∈ runs, run ≠ [])
    (hs : Separated runs) : Tiles bytes (runs.filterMap spanOf?) a b := by
  have hlen := le_length_of_isBoundary hb
  induction runs generalizing a with
  | nil =>
    have hl := congrArg List.length hf
    rw [length_painted hlen] at hl
    exact Nat.le_antisymm hab (Nat.le_of_sub_eq_zero hl.symm)
  | cons run runs ih =>
    obtain ⟨hle, hrun, hruns⟩ := flatten_cons_eq_painted hlen hf
    have hstop := isBoundary_of_separated (by omega) hb hruns hs
    have htail := ih (by omega) hruns (fun g hg => hn g (List.mem_cons_of_mem _ hg)) hs.of_cons
    obtain ⟨first, rest, rfl⟩ := List.exists_cons_of_ne_nil (hn run List.mem_cons_self)
    obtain ⟨rfl, -⟩ := head_of_painted_eq_cons (by omega) hrun.symm
    rw [List.length_cons, ← Nat.add_assoc] at hstop htail
    exact ⟨rfl, by simp only; omega, hstop, htail⟩

theorem tiles_paint (captures : List Capture) (hab : a ≤ b) (hb : isBoundary bytes b) :
    Tiles bytes (paint bytes ⟨a, b⟩ captures) a b :=
  tiles_of_runs hab hb (List.flatten_splitBy ..) (fun _ hg => List.ne_nil_of_mem_splitBy hg)
    (List.isChain_getLast_head_splitBy ..)

-- A list of runs is as long as what its spans cover.
theorem stop_eq_of_runs {runs : List (List Painted)} (hn : ∀ run ∈ runs, run ≠ [])
    (h : Tiles bytes (runs.filterMap spanOf?) a b) : b = a + runs.flatten.length := by
  induction runs generalizing a with
  | nil => exact h.symm
  | cons run runs ih =>
    obtain ⟨first, rest, rfl⟩ := List.exists_cons_of_ne_nil (hn run List.mem_cons_self)
    obtain ⟨hs, -, -, hrest⟩ := h
    have hr : b = first.offset + rest.length + 1 + runs.flatten.length :=
      ih (fun g hg => hn g (List.mem_cons_of_mem _ hg)) hrest
    rw [hr, ← hs, List.flatten_cons, List.length_append, List.length_cons]
    simp only
    omega

-- Where a span ends the window can be cut: the parts have the runs that they have in the whole.
theorem splitBy_of_append {captures : List Capture} {xs ys : List Span} (hbc : b ≤ c)
    (hc : c ≤ bytes.length) (h : paint bytes ⟨a, c⟩ captures = xs ++ ys)
    (hx : Tiles bytes xs a b) :
    let ranked := Capture.innermostFirst captures
    (painted bytes ⟨a, c⟩ ranked).splitBy Painted.joins =
        (painted bytes ⟨a, b⟩ ranked).splitBy Painted.joins ++
          (painted bytes ⟨b, c⟩ ranked).splitBy Painted.joins ∧
      paint bytes ⟨a, b⟩ captures = xs ∧ paint bytes ⟨b, c⟩ captures = ys := by
  intro ranked
  obtain ⟨before, after, hs, rfl, rfl⟩ := List.filterMap_eq_append_iff.mp h
  obtain ⟨hf, hn, hj, hsep⟩ := List.splitBy_eq_iff.mp hs
  have hsep := List.isChain_append.mp hsep
  rw [List.mem_append, not_or] at hn
  have hne : ∀ run ∈ before, run ≠ [] := fun run hm he => hn.1 (he ▸ hm)
  rw [List.flatten_append, painted_append hx.le hbc hc] at hf
  obtain ⟨hb, ha⟩ := List.append_inj hf (by
    rw [length_painted (hbc.trans hc), stop_eq_of_runs hne hx, Nat.add_sub_cancel_left])
  have hbefore : (painted bytes ⟨a, b⟩ ranked).splitBy Painted.joins = before := by
    rw [hb]
    exact List.splitBy_flatten hn.1 (fun run hm => hj run (List.mem_append_left _ hm)) hsep.1
  have hafter : (painted bytes ⟨b, c⟩ ranked).splitBy Painted.joins = after := by
    rw [ha]
    exact List.splitBy_flatten hn.2 (fun run hm => hj run (List.mem_append_right _ hm)) hsep.2.1
  exact ⟨by rw [hbefore, hafter, hs], by rw [← hbefore]; rfl, by rw [← hafter]; rfl⟩

theorem paint_of_append {captures : List Capture} {xs ys : List Span} (hbc : b ≤ c)
    (hc : c ≤ bytes.length) (h : paint bytes ⟨a, c⟩ captures = xs ++ ys)
    (hx : Tiles bytes xs a b) :
    paint bytes ⟨a, b⟩ captures = xs ∧ paint bytes ⟨b, c⟩ captures = ys :=
  (splitBy_of_append hbc hc h hx).2

theorem paint_filter_overlaps (raw : List RawCapture) (hb : b ≤ bytes.length) :
    paint bytes ⟨a, b⟩ (Capture.ofRawList (raw.filter (·.overlaps ⟨a, b⟩))) =
      paint bytes ⟨a, b⟩ (Capture.ofRawList raw) := by
  rw [paint, paint, painted_congr
    (fun offset hs he => ownerAt_filter_overlaps (w := ⟨a, b⟩) raw hs he) hb]

theorem owner_of_mem_painted {w : Window} {p : Painted} (h : p ∈ painted bytes w ranked) :
    p.owner = ownerAt ranked p.offset := by
  obtain ⟨⟨cell, offset⟩, -, rfl⟩ := List.mem_map.mp h
  rfl

-- A span has the highlight of its first byte, unless that is a newline.
theorem highlight_of_mem_paint {captures : List Capture} {w : Window} {span : Span}
    (h : span ∈ paint bytes w captures) :
    span.highlight = none ∨ span.highlight =
      (ownerAt (Capture.innermostFirst captures) span.start).map (·.highlight) := by
  obtain ⟨run, hrun, hspan⟩ := List.mem_filterMap.mp h
  cases run with
  | nil => cases hspan
  | cons first rest =>
    obtain rfl := Option.some.inj hspan
    have hfirst : first ∈ painted bytes w (Capture.innermostFirst captures) := by
      rw [← List.flatten_splitBy Painted.joins (painted bytes w _)]
      exact List.mem_flatten_of_mem hrun List.mem_cons_self
    simp only [← owner_of_mem_painted hfirst]
    cases first.isNewline with
    | true => exact Or.inl rfl
    | false => exact Or.inr rfl

-- Without captures nothing is highlighted.
theorem highlight_of_mem_paint_nil {w : Window} {span : Span} (h : span ∈ paint bytes w []) :
    span.highlight = none := by
  rcases highlight_of_mem_paint h with hnone | howner
  · exact hnone
  · rw [howner, Capture.innermostFirst_nil]
    rfl

end SyntaxStream.Segment
