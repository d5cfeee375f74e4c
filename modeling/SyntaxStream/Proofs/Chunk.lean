import SyntaxStream.Chunk
import SyntaxStream.Proofs.Text.Boundary
import SyntaxStream.Text.Natural
import Mathlib.Order.Bounds.Defs

namespace SyntaxStream.Chunk

open Text

-- Goes from an offset on, byte by byte, until it comes to the start of a character or the end.
inductive Rounds (bytes : List Cell) : Nat → Nat → Prop
  | here {offset : Nat} (boundary : isBoundary bytes offset = true) : Rounds bytes offset offset
  | next {offset stop : Nat} (inside : isBoundary bytes offset = false)
      (fits : offset + 1 < wordBound) (later : Rounds bytes (offset + 1) stop) :
      Rounds bytes offset stop

-- The splitting of a text as a loop over byte offsets of 64 bits. To the start of a chunk the size
-- is added without an overflow; the sum is limited to the text and rounded up.
inductive Splits (bytes : List Cell) (size : Nat) : Nat → List String → Prop
  | finished {start : Nat} (reached : bytes.length ≤ start) : Splits bytes size start []
  | chunk {start stop : Nat} {chunks : List String} (inside : start < bytes.length)
      (fits : start + size < wordBound)
      (rounds : Rounds bytes (min (start + size) bytes.length) stop)
      (boundary : isBoundary bytes start = true) (ordered : start ≤ stop)
      (others : Splits bytes size stop chunks) :
      Splits bytes size start (slice bytes start stop :: chunks)

-- The cutting of a text into the shortest parts that have a size, and what remains of it.
inductive Cut (size : Nat) : List Char → List (List Char) → Prop
  | nothing : Cut size [] []
  | remainder {cs : List Char} (nonempty : cs ≠ []) (short : byteLength cs < size) :
      Cut size cs [cs]
  | part {front rest : List Char} {c : Char} {parts : List (List Char)}
      (short : byteLength front < size) (enough : size ≤ byteLength (front ++ [c]))
      (others : Cut size rest parts) : Cut size (front ++ c :: rest) ((front ++ [c]) :: parts)

variable {size room n : Nat} {cs current : List Char}

theorem chunksFrom_of_short (h : byteLength cs < room) : chunksFrom size room current cs =
    if current.reverse ++ cs = [] then [] else [current.reverse ++ cs] := by
  induction cs generalizing room current with
  | nil => cases current <;> simp [chunksFrom]
  | cons c cs ih =>
    rw [byteLength] at h
    rw [chunksFrom, if_neg (by omega), ih (by omega)]
    simp

theorem chunksFrom_of_long (size : Nat) (current : List Char) (h : room ≤ byteLength cs)
    (hpos : 0 < room) :
    ∃ front c rest, cs = front ++ c :: rest ∧ byteLength front < room ∧
      room ≤ byteLength (front ++ [c]) ∧
      chunksFrom size room current cs =
        (current.reverse ++ (front ++ [c])) :: chunksFrom size size [] rest := by
  induction cs generalizing room current with
  | nil => exact absurd h (by rw [byteLength]; omega)
  | cons c cs ih =>
    rw [byteLength] at h
    by_cases hroom : room ≤ c.utf8Size
    · refine ⟨[], c, cs, rfl, hpos, ?_, ?_⟩
      · simpa [byteLength] using hroom
      · rw [chunksFrom, if_pos hroom]
        simp
    · have hlong : room - c.utf8Size ≤ byteLength cs := by omega
      obtain ⟨front, d, rest, rfl, hshort, henough, hchunks⟩ := ih (c :: current) hlong (by omega)
      refine ⟨c :: front, d, rest, rfl, ?_, ?_, ?_⟩
      · rw [byteLength]
        omega
      · rw [List.cons_append, byteLength]
        omega
      · rw [chunksFrom, if_neg hroom, hchunks]
        simp

-- By induction on the length of the text, as a part takes at least one character of it.
theorem cut_chunksFrom (hpos : 0 < size) (cs : List Char) :
    Cut size cs (chunksFrom size size [] cs) := by
  induction hlength : cs.length using Nat.strongRecOn generalizing cs with
  | ind length ih =>
    subst hlength
    by_cases hlong : size ≤ byteLength cs
    · obtain ⟨front, c, rest, rfl, hshort, henough, hchunks⟩ :=
        chunksFrom_of_long size [] hlong hpos
      rw [hchunks]
      refine .part hshort henough (ih rest.length ?_ rest rfl)
      rw [List.length_append, List.length_cons]
      omega
    · rw [chunksFrom_of_short (by omega)]
      by_cases hempty : cs = []
      · subst hempty
        exact .nothing
      · rw [List.reverse_nil, List.nil_append, if_neg hempty]
        exact .remainder hempty (by omega)

theorem Cut.flatten_eq {parts : List (List Char)} (h : Cut size cs parts) : parts.flatten = cs := by
  induction h with
  | nothing => rfl
  | remainder => simp
  | part _ _ _ ih => simp [ih]

-- What follows some parts of a text is cut into the parts that follow them.
theorem Cut.exists_of_append {before after : List (List Char)} {part : List Char}
    (h : Cut size cs (before ++ part :: after)) :
    ∃ rest, cs = before.flatten ++ rest ∧ Cut size rest (part :: after) := by
  induction before generalizing cs with
  | nil => exact ⟨cs, rfl, h⟩
  | cons first before ih =>
    rw [List.cons_append] at h
    generalize hothers : before ++ part :: after = others at h
    cases h with
    | remainder => simp at hothers
    | part _ _ hrest =>
      subst hothers
      obtain ⟨rest, rfl, hcut⟩ := ih hrest
      exact ⟨rest, by simp, hcut⟩

theorem Cut.bounds {part : List Char} {after : List (List Char)} (h : Cut size cs (part :: after)) :
    part ≠ [] ∧ byteLength part ≤ size + 3 := by
  cases h with
  | remainder nonempty short => exact ⟨nonempty, by omega⟩
  | @part front _ c _ short =>
    have hc := c.utf8Size_le_four
    refine ⟨by simp, ?_⟩
    rw [byteLength_append, byteLength, byteLength]
    omega

-- After a boundary the next one comes with the end of a character.
theorem le_of_isBoundary {front rest : List Char} {c : Char}
    (h : isBoundary (cells (front ++ c :: rest)) n) (hlt : byteLength front < n) :
    byteLength (front ++ [c]) ≤ n := by
  obtain ⟨k, rfl⟩ : ∃ k, n = (cells front).length + k :=
    ⟨n - byteLength front, by rw [length_cells]; omega⟩
  rw [cells_append, isBoundary_append_add, cells_cons] at h
  rw [length_cells] at hlt
  rw [byteLength_append, byteLength, byteLength, length_cells]
  rcases isBoundary_cellsOf_append h with rfl | ⟨later, rfl, -⟩
  · omega
  · rw [length_cellsOf]
    omega

theorem Cut.boundary {part : List Char} {after : List (List Char)}
    (h : Cut size cs (part :: after)) : isBoundary (cells cs) (byteLength part) = true := by
  rw [← length_cells]
  cases h with
  | remainder => exact isBoundary_length _
  | @part front rest c _ =>
    have hboundary := isBoundary_cells_append (front ++ [c]) rest
    rwa [List.append_assoc] at hboundary

-- A part that is not the last is the shortest with its size.
theorem Cut.isLeast {part : List Char} {after : List (List Char)} (h : Cut size cs (part :: after))
    (hafter : after ≠ []) :
    IsLeast {n | size ≤ n ∧ isBoundary (cells cs) n = true} (byteLength part) := by
  have hboundary := h.boundary
  cases h with
  | remainder => exact absurd rfl hafter
  | part short enough =>
    exact ⟨⟨enough, hboundary⟩,
      fun n hn => le_of_isBoundary hn.2 (Nat.lt_of_lt_of_le short hn.1)⟩

theorem rounds_of_least {bytes : List Cell} {a b : Nat} (hab : a ≤ b)
    (hb : isBoundary bytes b = true) (hleast : ∀ n, a ≤ n → isBoundary bytes n = true → b ≤ n)
    (hfits : b < wordBound) : Rounds bytes a b := by
  induction hn : b - a generalizing a with
  | zero =>
    obtain rfl : a = b := by omega
    exact .here hb
  | succ k ih =>
    have hinside : isBoundary bytes a = false := by
      refine Bool.eq_false_iff.mpr fun hboundary => ?_
      have hle := hleast a (Nat.le_refl a) hboundary
      omega
    refine .next hinside (by omega) (ih (by omega) (fun n han => hleast n (by omega)) (by omega))

theorem Rounds.unique {bytes : List Cell} {a b b' : Nat} (h : Rounds bytes a b)
    (h' : Rounds bytes a b') : b = b' := by
  induction h with
  | here boundary =>
    cases h' with
    | here => rfl
    | next inside => rw [boundary] at inside; cases inside
  | next inside _ _ ih =>
    cases h' with
    | here boundary => rw [boundary] at inside; cases inside
    | next _ _ later => exact ih later

theorem Splits.unique {bytes : List Cell} {start : Nat} {chunks chunks' : List String}
    (h : Splits bytes size start chunks) (h' : Splits bytes size start chunks') :
    chunks = chunks' := by
  induction h generalizing chunks' with
  | finished reached =>
    cases h' with
    | finished => rfl
    | chunk inside => omega
  | chunk inside _ rounds _ _ _ ih =>
    cases h' with
    | finished => omega
    | chunk _ _ rounds' _ _ others =>
      obtain rfl := rounds.unique rounds'
      rw [ih others]

theorem slice_middle (passed part rest : List Char) :
    slice (cells (passed ++ part ++ rest)) (byteLength passed) (byteLength (passed ++ part)) =
      String.ofList part := by
  rw [slice, cells_append, cells_append, ← length_cells, ← length_cells, cells_append,
    List.length_append, between_middle, opened_cells]

-- One turn of the loop, told by the characters before, in and behind the chunk.
theorem splits_cons {passed part rest : List Char} {chunks : List String} (hpart : part ≠ [])
    (fits : byteLength passed + size < wordBound)
    (rounds : Rounds (cells (passed ++ part ++ rest))
      (min (byteLength passed + size) (byteLength (passed ++ part ++ rest)))
      (byteLength (passed ++ part)))
    (others : Splits (cells (passed ++ part ++ rest)) size (byteLength (passed ++ part)) chunks) :
    Splits (cells (passed ++ part ++ rest)) size (byteLength passed)
      (String.ofList part :: chunks) := by
  have hpos : 0 < byteLength part := by
    rcases part with _ | ⟨c, part⟩
    · exact absurd rfl hpart
    · have hc := c.utf8Size_pos
      rw [byteLength]
      omega
  have hboundary := isBoundary_cells_append passed (part ++ rest)
  rw [length_cells, ← List.append_assoc] at hboundary
  rw [← slice_middle passed part rest]
  refine .chunk ?_ fits ?_ hboundary ?_ others
  · rw [length_cells, byteLength_append, byteLength_append]
    omega
  · rwa [length_cells]
  · rw [byteLength_append]
    omega

-- After the first chunk the size is no more than what has been passed, so that adding it to a start
-- gives less than twice the length of the text.
theorem splits_of_cut (passed : List Char) {parts : List (List Char)} (h : Cut size cs parts)
    (hlength : 2 * byteLength (passed ++ cs) < wordBound)
    (hfits : byteLength passed + size < wordBound) :
    Splits (cells (passed ++ cs)) size (byteLength passed) (parts.map String.ofList) := by
  induction h generalizing passed with
  | nothing =>
    refine .finished (Nat.le_of_eq ?_)
    rw [length_cells, List.append_nil]
  | @remainder cs nonempty short =>
    have hend : min (byteLength passed + size) (byteLength (passed ++ cs)) =
        byteLength (passed ++ cs) := by
      rw [byteLength_append]
      omega
    rw [← List.append_nil (passed ++ cs)]
    refine splits_cons nonempty hfits ?_ (.finished (Nat.le_of_eq ?_))
    · rw [List.append_nil, hend, ← length_cells]
      exact .here (isBoundary_length _)
    · rw [List.append_nil, length_cells]
  | @part front rest c parts short enough _ ih =>
    have hassoc : passed ++ front ++ c :: rest = passed ++ (front ++ [c]) ++ rest := by simp
    rw [← List.append_assoc, hassoc] at hlength ⊢
    have htotal : byteLength (passed ++ (front ++ [c]) ++ rest) =
        byteLength (passed ++ (front ++ [c])) + byteLength rest := byteLength_append ..
    have hpart : byteLength (passed ++ (front ++ [c])) =
        byteLength passed + byteLength (front ++ [c]) := byteLength_append ..
    have hsum : min (byteLength passed + size) (byteLength (passed ++ (front ++ [c]) ++ rest)) =
        byteLength passed + size := by omega
    refine splits_cons (by simp) hfits ?_ (ih _ hlength (by omega))
    rw [hsum]
    refine rounds_of_least (by omega) ?_ (fun n hn hboundary => ?_) (by omega)
    · rw [← length_cells]
      exact isBoundary_cells_append _ rest
    · rw [← List.append_assoc]
      rw [← hassoc] at hboundary
      refine le_of_isBoundary hboundary ?_
      rw [byteLength_append]
      omega

theorem cut_split (text : String) (size : Nat) : ∃ parts,
    Cut (max size 1) text.toList parts ∧ split text size = parts.map String.ofList :=
  ⟨_, cut_chunksFrom (Nat.le_max_right size 1) text.toList, rfl⟩

theorem splits_split (text : String) (hlength : 2 * text.utf8ByteSize < wordBound)
    (hsize : size < wordBound) : Splits (cells text.toList) (max size 1) 0 (split text size) := by
  obtain ⟨parts, hcut, hsplit⟩ := cut_split text size
  rw [utf8ByteSize_eq, length_cells] at hlength
  rw [hsplit]
  refine splits_of_cut [] hcut hlength ?_
  rw [byteLength, Nat.zero_add]
  exact Nat.max_lt.mpr ⟨hsize, by decide⟩

theorem join_map_ofList (parts : List (List Char)) :
    String.join (parts.map String.ofList) = String.ofList parts.flatten := by
  rw [← String.toList_inj, String.toList_join, List.flatMap_map, String.toList_ofList]
  simp only [String.toList_ofList]
  exact List.flatMap_id'

-- Splitting loses nothing, whatever the size.
theorem join_split (text : String) (size : Nat) : String.join (split text size) = text := by
  obtain ⟨parts, hcut, hsplit⟩ := cut_split text size
  rw [hsplit, join_map_ofList, hcut.flatten_eq, String.ofList_toList]

theorem exists_cut_of_split {text chunk : String} {before after : List String}
    (h : split text size = before ++ chunk :: after) :
    ∃ passed part rest parts, text.toList = passed ++ rest ∧
      String.join before = String.ofList passed ∧ chunk = String.ofList part ∧
      after = parts.map String.ofList ∧ Cut (max size 1) rest (part :: parts) := by
  obtain ⟨all, hcut, hsplit⟩ := cut_split text size
  rw [hsplit] at h
  obtain ⟨passed, others, rfl, rfl, hothers⟩ := List.map_eq_append_iff.mp h
  obtain ⟨part, parts, rfl, rfl, rfl⟩ := List.map_eq_cons_iff.mp hothers
  obtain ⟨rest, htext, hrest⟩ := hcut.exists_of_append
  exact ⟨passed.flatten, part, rest, parts, htext, join_map_ofList passed, rfl, rfl, hrest⟩

-- The chunks of a text are those of the loop over its bytes, which comes to an end without an
-- overflow. Together they are the text; they start and end with characters, and none is empty.
-- Each but the last is as short as it can be with its size, none is more than three bytes longer.
theorem split_into_least_chunks (text : String) (size : Nat)
    (hlength : text.utf8ByteSize ≤ 9223372036854775807) (hsize : size < wordBound) :
    (∀ chunks, Splits (cells text.toList) (max size 1) 0 chunks ↔ chunks = split text size) ∧
    String.join (split text size) = text ∧
    (∀ before chunk after, split text size = before ++ chunk :: after →
      let start := (String.join before).utf8ByteSize
      chunk ≠ "" ∧ chunk.utf8ByteSize ≤ max size 1 + 3 ∧
      isBoundary (cells text.toList) start = true ∧
      isBoundary (cells text.toList) (start + chunk.utf8ByteSize) = true ∧
      (after ≠ [] → IsLeast
        {n | max size 1 ≤ n ∧ isBoundary (cells text.toList) (start + n) = true}
        chunk.utf8ByteSize)) ∧
    (split text size = [] ↔ text = "") := by
  have hsplits : Splits (cells text.toList) (max size 1) 0 (split text size) := by
    refine splits_split text ?_ hsize
    unfold wordBound
    omega
  refine ⟨fun chunks => ⟨fun h => h.unique hsplits, fun h => h ▸ hsplits⟩, join_split text size,
    fun before chunk after h => ?_, fun h => ?_, fun h => ?_⟩
  · obtain ⟨passed, part, rest, parts, htext, hbefore, rfl, rfl, hcut⟩ := exists_cut_of_split h
    obtain ⟨hpart, hbound⟩ := hcut.bounds
    simp only [hbefore, htext, utf8ByteSize_ofList, length_cells, cells_append]
    rw [← length_cells passed]
    simp only [isBoundary_append_add]
    refine ⟨?_, hbound, ?_, hcut.boundary, fun hafter => hcut.isLeast ?_⟩
    · simpa using hpart
    · rw [← cells_append]
      exact isBoundary_cells_append passed rest
    · rintro rfl
      exact hafter rfl
  · rw [← join_split text size, h]
    rfl
  · subst h
    rfl

-- With a character of three bytes in it the first chunk is longer than asked for.
theorem split_into_least_chunks_three :
    let text := "a日é"
    text.utf8ByteSize ≤ 9223372036854775807 ∧ 2 < wordBound ∧
      Splits (cells text.toList) (max 2 1) 0 ["a日", "é"] := by
  intro text
  have hlength : text.utf8ByteSize ≤ 9223372036854775807 := by decide +kernel
  have hsplit : split text 2 = ["a日", "é"] := by decide +kernel
  obtain ⟨hloop, -⟩ := split_into_least_chunks text 2 hlength (by decide)
  exact ⟨hlength, by decide, (hloop _).mpr hsplit.symm⟩

end SyntaxStream.Chunk
