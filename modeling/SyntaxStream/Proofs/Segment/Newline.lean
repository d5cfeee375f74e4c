import SyntaxStream.Proofs.Segment.Paint
import SyntaxStream.Proofs.Text.Lines

namespace SyntaxStream

namespace Text

theorem opens_of_newline {cs : List Char} {cell : Cell} (hm : cell ∈ cells cs)
    (hn : cell.char = '\n') : cell.opens = true := by
  obtain ⟨c, -, hc⟩ := List.mem_flatMap.mp hm
  have hchar := char_of_mem_cellsOf hc
  rw [hn] at hchar
  subst hchar
  have hsingle : cellsOf '\n' = [⟨'\n', true⟩] := rfl
  rw [hsingle, List.mem_singleton] at hc
  rw [hc]

-- A newline is one byte, so that a character opens behind it.
theorem isChain_cells (cs : List Char) :
    (cells cs).IsChain fun x y => y.opens = true ∨ x.char ≠ '\n' := by
  induction cs with
  | nil => exact .nil
  | cons c cs ih =>
    rw [cells_cons]
    refine List.isChain_append.mpr ⟨?_, ih, fun x _ y hy => Or.inl ?_⟩
    · by_cases hc : c = '\n'
      · rw [hc]
        exact .singleton _
      · apply List.Pairwise.isChain
        apply List.pairwise_of_forall_mem_list
        intro x hx y _
        exact Or.inr (char_of_mem_cellsOf hx ▸ hc)
    · cases cs with
      | nil => simp [cells] at hy
      | cons d ds =>
        simp only [cells_cons, cellsOf, List.cons_append, List.head?_cons, Option.mem_def,
          Option.some.injEq] at hy
        rw [← hy]

theorem exists_mem_of_mem_opened {c : Char} {bytes : List Cell} (h : c ∈ opened bytes) :
    ∃ cell ∈ bytes, cell.char = c := by
  obtain ⟨cell, hm, hc⟩ := List.mem_filterMap.mp h
  refine ⟨cell, hm, ?_⟩
  split at hc
  · exact Option.some.inj hc
  · cases hc

-- The byte before the end of the last line is the newline that ends it.
theorem newline_before_lineEnd {source : String} (h : 0 < Transform.lineEnd source) :
    (cells source.toList)[Transform.lineEnd source - 1]? = some ⟨'\n', true⟩ := by
  obtain ⟨rest, hr⟩ := List.rdropWhile_prefix (· != '\n') source.toList
  have hlast := List.rdropWhile_last_not (· != '\n') source.toList
  rw [lineEnd_eq, completeLines, utf8ByteSize_ofList] at h ⊢
  generalize source.toList.rdropWhile (· != '\n') = lines at *
  have hne : lines ≠ [] := by
    rintro rfl
    exact absurd h (Nat.lt_irrefl 0)
  obtain ⟨front, last, rfl⟩ := List.eq_nil_or_concat lines |>.resolve_left hne
  have hnewline : last = '\n' := by simpa using hlast hne
  subst hnewline
  have hcells : cells source.toList = cells front ++ (⟨'\n', true⟩ :: cells rest) := by
    rw [← hr, List.concat_eq_append, List.append_assoc, cells_append]
    rfl
  have hlen : (cells (front.concat '\n')).length = (cells front).length + 1 := by
    rw [List.concat_eq_append, cells_append, List.length_append]
    rfl
  rw [hcells, hlen, Nat.add_sub_cancel, List.getElem?_append_right (Nat.le_refl _), Nat.sub_self]
  rfl

end Text

namespace Segment

open Text

variable {cs : List Char} {bytes : List Cell} {ranked captures : List Capture} {a b c : Nat}

@[simp] theorem paint_self (bytes : List Cell) (a : Nat) (captures : List Capture) :
    paint bytes ⟨a, a⟩ captures = [] := by
  simp [paint, painted_of_le]

theorem getLast?_painted (hab : a < b) (hb : b ≤ bytes.length) :
    (painted bytes ⟨a, b⟩ ranked).getLast? =
      some ⟨b - 1, bytes[b - 1], ownerAt ranked (b - 1)⟩ := by
  have hle : a ≤ b - 1 := by omega
  have hone : painted bytes ⟨b - 1, b⟩ ranked = _ := painted_eq_cons (by omega) hb
  rw [painted_of_le (a := b - 1 + 1) (by omega)] at hone
  rw [painted_append hle (Nat.sub_le b 1) hb, hone, List.getLast?_concat]

theorem Painted.isNewline_iff {p : Painted} : p.isNewline = true ↔ p.cell.char = '\n' := by
  simp [Painted.isNewline]

theorem joins_of_newline {p q : Painted} (hq : q.cell.opens = true)
    (hn : p.isNewline = true ∨ q.isNewline = true) : p.joins q = false := by
  rcases hn with hn | hn <;> simp [Painted.joins, hq, hn]

-- A place with a newline before or behind it.
def BesideNewline (bytes : List Cell) (offset : Nat) : Prop :=
  (∃ cell, bytes[offset - 1]? = some cell ∧ cell.char = '\n') ∨
    ∃ cell, bytes[offset]? = some cell ∧ cell.char = '\n'

-- A window can be cut where two neighbours do not belong together.
theorem paint_append_of_not_joins {captures : List Capture} (hab : a < b) (hbc : b < c)
    (hc : c ≤ bytes.length)
    (h : (Painted.mk (b - 1) bytes[b - 1] (ownerAt (Capture.innermostFirst captures) (b - 1))).joins
      ⟨b, bytes[b], ownerAt (Capture.innermostFirst captures) b⟩ = false) :
    paint bytes ⟨a, c⟩ captures = paint bytes ⟨a, b⟩ captures ++ paint bytes ⟨b, c⟩ captures := by
  rw [paint, painted_append (Nat.le_of_lt hab) (Nat.le_of_lt hbc) hc, List.splitBy_append,
    List.filterMap_append]
  · rfl
  · intro p hp q hq
    rw [getLast?_painted hab (hbc.le.trans hc), Option.mem_some_iff] at hp
    rw [painted_eq_cons hbc hc, List.head?_cons, Option.mem_some_iff] at hq
    rw [← hp, ← hq, h]

-- Beside a newline a window can be cut, whatever the captures.
theorem paint_append_of_newline (captures : List Capture) (hab : a ≤ b) (hbc : b ≤ c)
    (hc : c ≤ bytes.length) (hb : isBoundary bytes b)
    (hn : a < b → b < c → BesideNewline bytes b) :
    paint bytes ⟨a, c⟩ captures = paint bytes ⟨a, b⟩ captures ++ paint bytes ⟨b, c⟩ captures := by
  rcases Nat.eq_or_lt_of_le hab with rfl | hab
  · rw [paint_self, List.nil_append]
  rcases Nat.eq_or_lt_of_le hbc with rfl | hbc
  · rw [paint_self, List.append_nil]
  apply paint_append_of_not_joins hab hbc hc
  apply joins_of_newline
  · rwa [isBoundary_of_lt (hbc.trans_le hc)] at hb
  · refine (hn hab hbc).imp ?_ ?_
    · rintro ⟨cell, hlast, hchar⟩
      rw [List.getElem?_eq_getElem (by omega), Option.some.injEq] at hlast
      rw [Painted.isNewline_iff, hlast, hchar]
    · rintro ⟨cell, hfirst, hchar⟩
      rw [List.getElem?_eq_getElem (by omega), Option.some.injEq] at hfirst
      rw [Painted.isNewline_iff, hfirst, hchar]

theorem map_cell_painted (bytes : List Cell) (ranked : List Capture) (a b : Nat) :
    (painted bytes ⟨a, b⟩ ranked).map (·.cell) = between bytes a b := by
  simp [painted, List.map_map, Function.comp_def, List.zipIdx_map_fst]

-- A span that is a newline and has no highlight, or that has no newline in it.
def Lined (bytes : List Cell) (span : Span) : Prop :=
  (slice bytes span.start span.stop = "\n" ∧ span.highlight = none) ∨
    '\n' ∉ (slice bytes span.start span.stop).toList

-- In a run only the first byte can be a newline: it opens a character, and what joins the byte
-- before it does not.
theorem not_newline_of_joins {first : Painted} {rest : List Painted}
    (hj : (first :: rest).IsChain fun p q => p.joins q)
    (ho : ∀ p ∈ rest, p.isNewline = true → p.cell.opens = true) :
    ∀ p ∈ rest, p.isNewline = false := by
  induction rest generalizing first with
  | nil => simp
  | cons next rest ih =>
    obtain ⟨hjoin, hrest⟩ := List.isChain_cons_cons.mp hj
    have hnext : next.isNewline = false := by
      by_contra hn
      have hn : next.isNewline = true := by simpa using hn
      have hsplit := joins_of_newline (p := first) (ho next List.mem_cons_self hn) (Or.inr hn)
      rw [hsplit] at hjoin
      cases hjoin
    intro p hp
    rcases List.mem_cons.mp hp with rfl | hp
    · exact hnext
    · exact ih hrest (fun q hq => ho q (List.mem_cons_of_mem _ hq)) p hp

-- Behind a newline a character opens, and that does not join it.
theorem eq_nil_of_isNewline {first : Painted} {rest : List Painted}
    (hn : first.isNewline = true) (hj : (first :: rest).IsChain fun p q => p.joins q)
    (hc : ((first :: rest).map (·.cell)).IsChain fun x y => y.opens = true ∨ x.char ≠ '\n') :
    rest = [] := by
  cases rest with
  | nil => rfl
  | cons next rest =>
    have hpair := (List.isChain_cons_cons.mp hc).1
    have hnext : next.cell.opens = true :=
      hpair.resolve_right fun hne => hne (Painted.isNewline_iff.mp hn)
    have hsplit := joins_of_newline hnext (Or.inl hn)
    rw [(List.isChain_cons_cons.mp hj).1] at hsplit
    cases hsplit

theorem lined_of_run {first : Painted} {rest : List Painted} {span : Span}
    (hrun : first :: rest = painted (cells cs) ⟨a, b⟩ ranked) (hb : b ≤ (cells cs).length)
    (hj : (first :: rest).IsChain fun p q => p.joins q) (hs : spanOf? (first :: rest) = some span) :
    Lined (cells cs) span := by
  have hlen := congrArg List.length hrun
  rw [length_painted hb, List.length_cons] at hlen
  obtain ⟨rfl, -⟩ := head_of_painted_eq_cons hb hrun.symm
  have hstop : first.offset + rest.length + 1 = b := by omega
  obtain rfl := Option.some.inj hs
  have hcells : (first :: rest).map (·.cell) = between (cells cs) first.offset b := by
    rw [hrun, map_cell_painted]
  have hmem : ∀ cell ∈ between (cells cs) first.offset b, cell ∈ cells cs := fun cell hm =>
    List.mem_of_mem_drop (List.mem_of_mem_take hm)
  have hopens : ∀ p ∈ first :: rest, p.isNewline = true → p.cell.opens = true := by
    intro p hp hn
    apply opens_of_newline (hmem p.cell _) (Painted.isNewline_iff.mp hn)
    rw [← hcells]
    exact List.mem_map_of_mem hp
  have hlater := not_newline_of_joins hj fun p hp => hopens p (List.mem_cons_of_mem _ hp)
  simp only [Lined, hstop, slice, ← hcells]
  by_cases hn : first.isNewline = true
  · left
    have hchain := ((isChain_cells cs).drop first.offset).take (b - first.offset)
    rw [← between, ← hcells] at hchain
    obtain rfl := eq_nil_of_isNewline hn hj hchain
    have hopen := hopens first List.mem_cons_self hn
    simp [opened, hopen, Painted.isNewline_iff.mp hn, hn]
  · right
    rw [String.toList_ofList]
    intro hm
    obtain ⟨cell, hcell, hchar⟩ := exists_mem_of_mem_opened hm
    obtain ⟨p, hp, rfl⟩ := List.mem_map.mp hcell
    have hnewline := Painted.isNewline_iff.mpr hchar
    rcases List.mem_cons.mp hp with rfl | hp
    · exact hn hnewline
    · rw [hlater p hp] at hnewline
      cases hnewline

theorem lined_of_runs {runs : List (List Painted)} (hb : b ≤ (cells cs).length)
    (hf : runs.flatten = painted (cells cs) ⟨a, b⟩ ranked) (hn : ∀ run ∈ runs, run ≠ [])
    (hj : ∀ run ∈ runs, run.IsChain fun p q => p.joins q) :
    ∀ span ∈ runs.filterMap spanOf?, Lined (cells cs) span := by
  induction runs generalizing a with
  | nil => simp
  | cons run runs ih =>
    obtain ⟨hle, hrun, hruns⟩ := flatten_cons_eq_painted hb hf
    have hlater := ih hruns (fun g hg => hn g (List.mem_cons_of_mem _ hg))
      (fun g hg => hj g (List.mem_cons_of_mem _ hg))
    obtain ⟨first, rest, rfl⟩ := List.exists_cons_of_ne_nil (hn run List.mem_cons_self)
    have hend : a + (first :: rest).length ≤ (cells cs).length := by
      simp only [List.length_cons] at hle ⊢
      omega
    intro span hm
    rcases List.mem_cons.mp hm with rfl | hm
    · exact lined_of_run hrun hend (hj _ List.mem_cons_self) rfl
    · exact hlater span hm

theorem lined_paint (captures : List Capture) (hb : b ≤ (cells cs).length) :
    ∀ span ∈ paint (cells cs) ⟨a, b⟩ captures, Lined (cells cs) span :=
  lined_of_runs hb (List.flatten_splitBy ..) (fun _ hg => List.ne_nil_of_mem_splitBy hg)
    (fun _ hg => List.isChain_of_mem_splitBy hg)

end Segment

end SyntaxStream
