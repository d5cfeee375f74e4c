import SyntaxStream.Proofs.Segment.Innermost

namespace SyntaxStream

open Text

-- Operations that need their arguments to be in range, and give nothing otherwise.
namespace Guarded

variable {α : Type}

def sub? (a b : Nat) : Option Nat := if b ≤ a then some (a - b) else none

-- Puts a value at all places of a range.
def fill? (xs : List α) (a b : Nat) (x : α) : Option (List α) :=
  if a ≤ b ∧ b ≤ xs.length then
    some (xs.mapIdx fun i old => if a ≤ i ∧ i < b then x else old)
  else
    none

end Guarded

namespace Segment

open Guarded

-- Paints one capture over the part of it that is in the window. An entry is a capture and its
-- place in the order of painting.
def overpaint? (w : Window) (owners : List (Option Nat)) (entry : Capture × Nat) :
    Option (List (Option Nat)) :=
  let start := max entry.1.start w.start
  let stop := min entry.1.stop w.stop
  if stop ≤ start then
    some owners
  else do
    fill? owners (← sub? start w.start) (← sub? stop w.start) (some entry.2)

-- The owner of each byte of a window, by its place in the order.
def owners? (w : Window) (order : List Capture) : Option (List (Option Nat)) :=
  order.zipIdx.foldlM (overpaint? w) (List.replicate (w.stop - w.start) none)

def ownerOf? (w : Window) (owners : List (Option Nat)) (offset : Nat) : Option (Option Nat) := do
  owners[← sub? offset w.start]?

def newline? (bytes : List Cell) (offset : Nat) : Option Bool :=
  bytes[offset]?.map (·.char == '\n')

-- Whether a span ends before a byte. All of it is looked at, even where the first part decides.
def breaks? (bytes : List Cell) (w : Window) (owners : List (Option Nat)) (offset : Nat) :
    Option Bool :=
  if offset = w.stop then
    some true
  else if isBoundary bytes offset then do
    let before ← sub? offset 1
    let owner ← ownerOf? w owners offset
    let ownerBefore ← ownerOf? w owners before
    let newline ← newline? bytes offset
    let newlineBefore ← newline? bytes before
    return ownerBefore != owner || newlineBefore || newline
  else
    some false

def highlight? (bytes : List Cell) (w : Window) (order : List Capture)
    (owners : List (Option Nat)) (offset : Nat) : Option (Option Nat) := do
  let newline ← newline? bytes offset
  if newline then
    return none
  else
    match ← ownerOf? w owners offset with
    | none => return none
    | some place => return some (← order[place]?).highlight

-- Goes through the places of a window, where a span is open that starts at some earlier place.
def scan? (bytes : List Cell) (w : Window) (order : List Capture) (owners : List (Option Nat)) :
    List Nat → Nat → Option (List Span)
  | [], _ => some []
  | offset :: rest, start => do
    if ← breaks? bytes w owners offset then
      let highlight ← highlight? bytes w order owners start
      let spans ← scan? bytes w order owners rest offset
      return ⟨start, offset, highlight⟩ :: spans
    else
      scan? bytes w order owners rest start

-- The painting of a window as a loop over its bytes: the captures are painted one over the other,
-- the longer ones first.
def paint? (bytes : List Cell) (w : Window) (captures : List Capture) : Option (List Span) := do
  let order := captures.mergeSort fun a b => b.length ≤ a.length
  let owners ← owners? w order
  scan? bytes w order owners (List.range' (w.start + 1) (w.stop - w.start)) w.start

-- The place of the last capture in an order that covers an offset.
def placeAt (order : List Capture) (offset : Nat) : Option Nat :=
  order.zipIdx.foldl (fun place entry => if entry.1.covers offset then some entry.2 else place) none

section Places

variable {order : List Capture} {c : Capture} {i j k : Nat}

theorem placeAt_concat (order : List Capture) (c : Capture) (i : Nat) :
    placeAt (order ++ [c]) i = if c.covers i then some order.length else placeAt order i := by
  simp [placeAt, List.zipIdx_append]

theorem ownerAt_reverse_concat (order : List Capture) (c : Capture) (i : Nat) :
    ownerAt (order ++ [c]).reverse i = if c.covers i then some c else ownerAt order.reverse i := by
  rw [List.reverse_append, List.reverse_singleton, List.singleton_append, ownerAt, List.find?_cons]
  cases c.covers i <;> rfl

theorem placeAt_lt (h : placeAt order i = some k) : k < order.length := by
  induction order using List.reverseRecOn with
  | nil => cases h
  | append_singleton order c ih =>
    rw [List.length_append, List.length_singleton]
    rw [placeAt_concat] at h
    by_cases hc : c.covers i = true
    · rw [if_pos hc, Option.some.injEq] at h
      omega
    · rw [if_neg hc] at h
      have hk := ih h
      omega

-- At its place stands the owner.
theorem getElem?_placeAt (order : List Capture) (i : Nat) :
    (placeAt order i).bind (order[·]?) = ownerAt order.reverse i := by
  induction order using List.reverseRecOn with
  | nil => rfl
  | append_singleton order c ih =>
    rw [placeAt_concat, ownerAt_reverse_concat]
    by_cases hc : c.covers i = true
    · rw [if_pos hc, if_pos hc, Option.bind_some, List.getElem?_concat_length]
    · rw [if_neg hc, if_neg hc, ← ih]
      cases hk : placeAt order i with
      | none => rfl
      | some k => exact List.getElem?_append_left (placeAt_lt hk)

theorem covers_of_ownerAt (h : ownerAt order i = some c) : c.covers i = true := by
  unfold ownerAt at h
  have hcovers := List.find?_some h
  exact hcovers

-- Two offsets have one owner if it is the same capture in the order, not only an equal one: of
-- equal captures the last owns all that they cover.
theorem placeAt_eq_iff : placeAt order i = placeAt order j ↔
    ownerAt order.reverse i = ownerAt order.reverse j := by
  induction order using List.reverseRecOn with
  | nil => exact iff_of_true rfl rfl
  | append_singleton order c ih =>
    rw [placeAt_concat, placeAt_concat, ownerAt_reverse_concat, ownerAt_reverse_concat]
    by_cases hi : c.covers i = true <;> by_cases hj : c.covers j = true
    · rw [if_pos hi, if_pos hj, if_pos hi, if_pos hj]
      simp
    · rw [if_pos hi, if_neg hj, if_pos hi, if_neg hj]
      refine iff_of_false (fun h => ?_) fun h => hj (covers_of_ownerAt h.symm)
      exact Nat.lt_irrefl _ (placeAt_lt h.symm)
    · rw [if_neg hi, if_pos hj, if_neg hi, if_pos hj]
      refine iff_of_false (fun h => ?_) fun h => hi (covers_of_ownerAt h)
      exact Nat.lt_irrefl _ (placeAt_lt h)
    · rw [if_neg hi, if_neg hj, if_neg hi, if_neg hj]
      exact ih

end Places

section Painting

variable {bytes : List Cell} {captures order : List Capture} {a b i : Nat}

theorem fill?_map {α : Type} {f : Nat → α} {x : α} {n start stop : Nat} (ha : a ≤ start)
    (hle : start ≤ stop) (hn : stop ≤ a + n) :
    fill? ((List.range' a n).map f) (start - a) (stop - a) x =
      some ((List.range' a n).map fun i => if start ≤ i ∧ i < stop then x else f i) := by
  have hbounds : start - a ≤ stop - a ∧ stop - a ≤ ((List.range' a n).map f).length := by
    rw [List.length_map, List.length_range']
    omega
  rw [fill?, if_pos hbounds, Option.some.injEq]
  apply List.ext_getElem
  · simp
  · intro i hi hi'
    have hplace : (start - a ≤ i ∧ i < stop - a) ↔ (start ≤ a + i ∧ a + i < stop) := by omega
    simp only [List.getElem_mapIdx, List.getElem_map, List.getElem_range', Nat.one_mul, hplace]

theorem overpaint?_map (f : Nat → Option Nat) (entry : Capture × Nat) :
    overpaint? ⟨a, b⟩ ((List.range' a (b - a)).map f) entry =
      some ((List.range' a (b - a)).map fun i =>
        if entry.1.covers i then some entry.2 else f i) := by
  have hcovers : ∀ i ∈ List.range' a (b - a), entry.1.covers i = true ↔
      max entry.1.start a ≤ i ∧ i < min entry.1.stop b := by
    intro i hi
    rw [List.mem_range'_1] at hi
    simp only [Capture.covers, Bool.and_eq_true, decide_eq_true_eq]
    omega
  unfold overpaint?
  simp only
  by_cases hle : min entry.1.stop b ≤ max entry.1.start a
  · rw [if_pos hle, Option.some.injEq]
    apply List.map_congr_left
    intro i hi
    rw [if_neg]
    rw [hcovers i hi]
    omega
  · have hstart : a ≤ max entry.1.start a := Nat.le_max_right _ _
    have hstop : a ≤ min entry.1.stop b := by omega
    rw [if_neg hle, sub?, if_pos hstart, sub?, if_pos hstop]
    simp only [Option.bind_eq_bind, Option.bind_some]
    rw [fill?_map hstart (by omega) (by omega), Option.some.injEq]
    apply List.map_congr_left
    intro i hi
    simp only [hcovers i hi]

theorem foldlM_overpaint? (entries : List (Capture × Nat)) (f : Nat → Option Nat) :
    entries.foldlM (overpaint? ⟨a, b⟩) ((List.range' a (b - a)).map f) =
      some ((List.range' a (b - a)).map fun i =>
        entries.foldl (fun place entry => if entry.1.covers i then some entry.2 else place)
          (f i)) := by
  induction entries generalizing f with
  | nil => rfl
  | cons entry entries ih =>
    rw [List.foldlM_cons, overpaint?_map, Option.bind_eq_bind, Option.bind_some, ih]
    rfl

-- Each byte is owned by the last capture painted over it.
theorem owners?_eq (order : List Capture) (a b : Nat) :
    owners? ⟨a, b⟩ order = some ((List.range' a (b - a)).map (placeAt order)) := by
  have hblank : List.replicate (b - a) none =
      (List.range' a (b - a)).map fun _ => (none : Option Nat) := by
    rw [List.map_const', List.length_range']
  rw [owners?, hblank, foldlM_overpaint?]
  rfl

theorem ownerOf?_eq (order : List Capture) (ha : a ≤ i) (hb : i < b) :
    ownerOf? ⟨a, b⟩ ((List.range' a (b - a)).map (placeAt order)) i = some (placeAt order i) := by
  unfold ownerOf? sub?
  have hi : i - a < b - a := by omega
  have hplace : a + (i - a) = i := by omega
  simp [ha, hi, hplace]

theorem newline?_eq (h : i < bytes.length) : newline? bytes i = some (newlineAt bytes i) := by
  simp [newline?, newlineAt, h]

theorem breaks?_stop (owners : List (Option Nat)) : breaks? bytes ⟨a, b⟩ owners b = some true :=
  if_pos rfl

-- Between two bytes of a window a span ends where they do not belong together.
theorem breaks?_eq (ha : a ≤ i) (hi : i + 1 < b) (hb : b ≤ bytes.length) :
    breaks? bytes ⟨a, b⟩ ((List.range' a (b - a)).map (placeAt order)) (i + 1) =
      some !(Painted.mk i bytes[i] (ownerAt order.reverse i)).joins
        ⟨i + 1, bytes[i + 1], ownerAt order.reverse (i + 1)⟩ := by
  have hnext : i + 1 < bytes.length := by omega
  have howner : (placeAt order i != placeAt order (i + 1)) =
      (ownerAt order.reverse i != ownerAt order.reverse (i + 1)) := by
    rw [Bool.eq_iff_iff, bne_iff_ne, bne_iff_ne, ne_eq, placeAt_eq_iff]
  have hbefore : sub? (i + 1) 1 = some i := if_pos (Nat.le_add_left 1 i)
  unfold breaks?
  rw [if_neg (Nat.ne_of_lt hi), isBoundary_of_lt hnext, hbefore]
  cases ho : bytes[i + 1].opens with
  | false => simp [Painted.joins, ho]
  | true =>
    simp only [if_true, Option.bind_eq_bind, Option.bind_some,
      ownerOf?_eq order ha (Nat.lt_of_succ_lt hi), ownerOf?_eq order (Nat.le_succ_of_le ha) hi,
      newline?_eq hnext, newline?_eq (Nat.lt_of_succ_lt hnext), howner,
      newlineAt_eq hnext, newlineAt_eq (Nat.lt_of_succ_lt hnext)]
    simp [Painted.joins, Painted.isNewline, ho]

theorem highlight?_eq (order : List Capture) (ha : a ≤ i) (hi : i < b) (hb : b ≤ bytes.length) :
    highlight? bytes ⟨a, b⟩ order ((List.range' a (b - a)).map (placeAt order)) i =
      some (if newlineAt bytes i then none
        else (ownerAt order.reverse i).map (·.highlight)) := by
  unfold highlight?
  rw [newline?_eq (hi.trans_le hb), Option.bind_eq_bind, Option.bind_some]
  by_cases hn : newlineAt bytes i = true
  · rw [if_pos hn, if_pos hn]
    rfl
  · rw [if_neg hn, if_neg hn, ownerOf?_eq order ha hi, Option.bind_eq_bind, Option.bind_some,
      ← getElem?_placeAt]
    cases hplace : placeAt order i with
    | none => rfl
    | some place => simp [placeAt_lt hplace]

-- The open span starts at c. It grows over what belongs together, and is closed where the window
-- can be cut.
theorem scan?_eq (captures : List Capture) {c : Nat} (ha : a ≤ c) (hc : c ≤ i) (hi : i < b)
    (hb : b ≤ bytes.length)
    (hjoined : ∀ j (_ : c ≤ j) (_ : j + 1 < i + 1),
      (Painted.mk j bytes[j] (ownerAt (Capture.innermostFirst captures) j)).joins
        ⟨j + 1, bytes[j + 1], ownerAt (Capture.innermostFirst captures) (j + 1)⟩ = true) :
    let order := captures.mergeSort fun a b => b.length ≤ a.length
    scan? bytes ⟨a, b⟩ order ((List.range' a (b - a)).map (placeAt order))
      (List.range' (i + 1) (b - i)) c = some (paint bytes ⟨c, b⟩ captures) := by
  intro order
  have hranked : order.reverse = Capture.innermostFirst captures := rfl
  induction hn : b - i generalizing c i with
  | zero => omega
  | succ n ih =>
    have hclosed := paint_of_joined captures (Nat.lt_succ_of_le hc) (by omega) hjoined
    have hhighlight := highlight?_eq order ha (Nat.lt_of_le_of_lt hc hi) hb
    rw [List.range'_succ, scan?]
    by_cases hlast : i + 1 = b
    · obtain rfl : n = 0 := by omega
      subst hlast
      rw [breaks?_stop, hhighlight, hclosed]
      rfl
    · have hlt : i + 1 < b := by omega
      rw [breaks?_eq (ha.trans hc) hlt hb, hranked]
      cases hj : (Painted.mk i bytes[i] (ownerAt (Capture.innermostFirst captures) i)).joins
          ⟨i + 1, bytes[i + 1], ownerAt (Capture.innermostFirst captures) (i + 1)⟩ with
      | true =>
        apply ih ha (Nat.le_succ_of_le hc) hlt
        · intro j hcj hji
          rcases Nat.lt_succ_iff_lt_or_eq.mp (Nat.lt_of_succ_lt_succ hji) with hlt | rfl
          · exact hjoined j hcj (Nat.succ_lt_succ hlt)
          · exact hj
        · omega
      | false =>
        have hlater := ih (c := i + 1) (by omega) (Nat.le_refl _) hlt
          (fun j hcj hji => by omega) (by omega)
        have hcut := paint_append_of_not_joins (Nat.lt_succ_of_le hc) hlt hb hj
        rw [hcut, hclosed, hhighlight]
        simp only [Bool.not_false, Option.bind_eq_bind, Option.bind_some, if_true]
        rw [hlater]
        rfl

theorem paint?_eq (captures : List Capture) (hab : a < b) (hb : b ≤ bytes.length) :
    paint? bytes ⟨a, b⟩ captures = some (paint bytes ⟨a, b⟩ captures) := by
  simp only [paint?, owners?_eq, Option.bind_eq_bind, Option.bind_some]
  apply scan?_eq captures (Nat.le_refl a) (Nat.le_refl a) hab hb
  intro j haj hja
  omega

end Painting

end Segment

namespace Tokenizer

variable {σ : Type}

def segment? (parser : SyntaxParser σ) (t : Tokenizer) (language : Language) (source : String)
    (hasTree : Bool) (window : Window) (s : σ) : Option (List Span × σ) :=
  let bytes := cells source.toList
  let w := window.clampTo bytes.length
  if w.isEmpty then
    some ([], s)
  else if t.supports language && language.hasGrammar && hasTree then
    let (raw, s) := parser.captures w s
    (Segment.paint? bytes w (Capture.ofRawList raw)).map (·, s)
  else
    (Segment.paint? bytes w []).map (·, s)

-- Whatever the captures and the window are, nothing that is read or written is out of range.
theorem segment?_eq (parser : SyntaxParser σ) (t : Tokenizer) (language : Language)
    (source : String) (hasTree : Bool) (window : Window) (s : σ) :
    t.segment? parser language source hasTree window s =
      some (t.segment parser language source hasTree window s) := by
  unfold segment? segment
  simp only
  by_cases hw : (window.clampTo (cells source.toList).length).isEmpty = true
  · rw [if_pos hw, if_pos hw]
  · have hlt : (window.clampTo (cells source.toList).length).start <
        (window.clampTo (cells source.toList).length).stop := by
      simpa [Window.isEmpty] using hw
    have hsize : (window.clampTo (cells source.toList).length).stop ≤
        (cells source.toList).length := Nat.min_le_right _ _
    have hpaint := fun captures => Segment.paint?_eq captures hlt hsize
    rw [if_neg hw, if_neg hw, hpaint, hpaint]
    split <;> rfl

end Tokenizer

end SyntaxStream
