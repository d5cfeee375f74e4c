import SyntaxStream.Proofs.Markdown.Selection
import SyntaxStream.Proofs.Text.Numeral
import SyntaxStream.Proofs.Text.Pieces

namespace SyntaxStream

namespace CodeBlock

open Text

-- What an entry of a selection asks for.
inductive Request where
  | line (number : Nat)
  | lines (first last : Nat)

def Request.Includes : Request → Nat → Prop
  | line number, n => n = number
  | lines first last, n => first ≤ n ∧ n ≤ last

-- The forms of an entry: the number of a line, or those of two lines with a dash between them.
inductive Reads (entry : List Char) : Request → Prop
  | line {number : Nat} (undashed : '-' ∉ trim entry) (counts : IsCount (trim entry) number) :
      Reads entry (.line number)
  | lines {before after : List Char} {first last : Nat} (undashed : '-' ∉ before)
      (dashed : trim entry = before ++ '-' :: after) (starts : IsCount (trim before) first)
      (ends : IsCount (trim after) last) : Reads entry (.lines first last)

-- The text between the first opening brace and the first closing brace after it.
def Braced (cs selection : List Char) : Prop :=
  ∃ before after, '\x7b' ∉ before ∧ '\x7d' ∉ selection ∧
    cs = before ++ '\x7b' :: (selection ++ '\x7d' :: after)

variable {cs selection entry : List Char} {lineCount n : Nat} {request request' : Request}

theorem selection?_eq_some_iff : selection? cs = some selection ↔ Braced cs selection := by
  simp only [selection?, Braced, Option.bind_eq_bind, Option.bind_eq_some_iff, Prod.exists,
    Option.pure_def, Option.some.injEq, splitOnce_sep_eq_some_iff]
  constructor
  · rintro ⟨before, _, ⟨hbefore, rfl⟩, _, after, ⟨hselection, rfl⟩, rfl⟩
    exact ⟨before, after, hbefore, hselection, rfl⟩
  · rintro ⟨before, after, hbefore, hselection, rfl⟩
    exact ⟨before, _, ⟨hbefore, rfl⟩, _, after, ⟨hselection, rfl⟩, rfl⟩

-- The lines of a block that a request includes, in the order in which they are noted down.
def Request.linesIn (lineCount : Nat) : Request → List Nat
  | line number => if number ≤ lineCount then [number] else []
  | lines first last => linesBetween lineCount first last

theorem Request.mem_linesIn_iff :
    n ∈ request.linesIn lineCount ↔ request.Includes n ∧ n ≤ lineCount := by
  cases request with
  | line number =>
    rw [linesIn, Includes]
    split
    · grind
    · grind
  | lines first last =>
    rw [linesIn, mem_linesBetween, Includes, and_assoc]

-- However large the numbers of a request, no more lines are noted than there are from zero to the
-- last of the block.
theorem Request.length_linesIn_le : (request.linesIn lineCount).length ≤ lineCount + 1 := by
  cases request with
  | line number =>
    rw [linesIn]
    split
    · exact Nat.le_add_left 1 lineCount
    · exact Nat.zero_le _
  | lines first last =>
    rw [linesIn, linesBetween, List.length_range']
    omega

theorem entryLines_of_reads (h : Reads entry request) :
    entryLines lineCount entry = request.linesIn lineCount := by
  cases h with
  | line undashed counts =>
    simp only [entryLines, splitOnce_sep_eq_none_iff.mpr undashed,
      natural?_eq_some_iff.mpr counts, Request.linesIn]
  | lines undashed dashed starts ends =>
    simp only [entryLines, splitOnce_sep_eq_some_iff.mpr ⟨undashed, dashed⟩,
      natural?_eq_some_iff.mpr starts, natural?_eq_some_iff.mpr ends, Request.linesIn]

-- An entry of any other form is passed over.
theorem entryLines_of_not_reads (h : ∀ request, ¬ Reads entry request) :
    entryLines lineCount entry = [] := by
  unfold entryLines
  simp only
  split
  · next before after hdash =>
    obtain ⟨undashed, dashed⟩ := splitOnce_sep_eq_some_iff.mp hdash
    split
    · next first last hfirst hlast =>
      exact absurd (.lines undashed dashed (natural?_eq_some_iff.mp hfirst)
        (natural?_eq_some_iff.mp hlast)) (h _)
    · rfl
  · next hdash =>
    split
    · next number hnumber =>
      exact absurd (.line (splitOnce_sep_eq_none_iff.mp hdash) (natural?_eq_some_iff.mp hnumber))
        (h _)
    · rfl

-- What an entry adds to the lines noted down, whatever its form.
theorem entryLines_cases (lineCount : Nat) (entry : List Char) :
    (∃ request, Reads entry request ∧ entryLines lineCount entry = request.linesIn lineCount) ∨
      (∀ request, ¬ Reads entry request) ∧ entryLines lineCount entry = [] := by
  by_cases h : ∃ request, Reads entry request
  · obtain ⟨request, hreads⟩ := h
    exact .inl ⟨request, hreads, entryLines_of_reads hreads⟩
  · have hnone := not_exists.mp h
    exact .inr ⟨hnone, entryLines_of_not_reads hnone⟩

theorem mem_entryLines_iff : n ∈ entryLines lineCount entry ↔
    (∃ request, Reads entry request ∧ request.Includes n) ∧ n ≤ lineCount := by
  constructor
  · intro h
    rcases entryLines_cases lineCount entry with ⟨request, hreads, hlines⟩ | ⟨-, hlines⟩
    · rw [hlines, Request.mem_linesIn_iff] at h
      exact ⟨⟨request, hreads, h.1⟩, h.2⟩
    · rw [hlines] at h
      cases h
  · rintro ⟨⟨request, hreads, hincludes⟩, hle⟩
    rw [entryLines_of_reads hreads]
    exact Request.mem_linesIn_iff.mpr ⟨hincludes, hle⟩

theorem length_entryLines_le (lineCount : Nat) (entry : List Char) :
    (entryLines lineCount entry).length ≤ lineCount + 1 := by
  rcases entryLines_cases lineCount entry with ⟨request, -, hlines⟩ | ⟨-, hlines⟩
  · rw [hlines]
    exact Request.length_linesIn_le
  · rw [hlines]
    exact Nat.zero_le _

-- A selection asks for a line by one of its entries.
def AsksFor (selection : List Char) (n : Nat) : Prop :=
  ∃ entry ∈ selection.splitOn ',', ∃ request, Reads entry request ∧ request.Includes n

theorem mem_requestedLines_iff :
    n ∈ requestedLines lineCount selection ↔ AsksFor selection n ∧ n ≤ lineCount := by
  rw [requestedLines, splitAll_eq_splitOn, List.mem_flatMap]
  simp only [mem_entryLines_iff, AsksFor]
  constructor
  · rintro ⟨entry, hentry, hasks, hle⟩
    exact ⟨⟨entry, hentry, hasks⟩, hle⟩
  · rintro ⟨⟨entry, hentry, hasks⟩, hle⟩
    exact ⟨entry, hentry, hasks, hle⟩

theorem mem_selectedLines_iff {fenceMeta : String} : n ∈ selectedLines fenceMeta lineCount ↔
    1 ≤ n ∧ n ≤ lineCount ∧
      ∃ selection, Braced fenceMeta.toList selection ∧ AsksFor selection n := by
  simp only [← selection?_eq_some_iff]
  unfold selectedLines
  cases selection? fenceMeta.toList with
  | none => simp
  | some selection =>
    rw [mem_eraseReps, List.mem_mergeSort, List.mem_filter, mem_requestedLines_iff]
    simp only [decide_eq_true_eq, Option.some.injEq, exists_eq_left']
    tauto

theorem Braced.unique {selection' : List Char} (h : Braced cs selection)
    (h' : Braced cs selection') : selection = selection' := by
  rw [← selection?_eq_some_iff] at h h'
  exact Option.some_inj.mp (h.symm.trans h')

theorem exists_braced_iff (h : Braced cs selection) :
    (∃ inner, Braced cs inner ∧ AsksFor inner n) ↔ AsksFor selection n := by
  constructor
  · rintro ⟨inner, hinner, hasks⟩
    rwa [h.unique hinner]
  · intro hasks
    exact ⟨selection, h, hasks⟩

-- Only the entries that are read count, and neither their order nor how often they stand there.
theorem asksFor_congr {selection' : List Char} (h : ∀ entry request, Reads entry request →
    (entry ∈ selection.splitOn ',' ↔ entry ∈ selection'.splitOn ',')) :
    AsksFor selection n ↔ AsksFor selection' n := by
  constructor
  · rintro ⟨entry, hentry, request, hreads, hincludes⟩
    exact ⟨entry, (h entry request hreads).mp hentry, request, hreads, hincludes⟩
  · rintro ⟨entry, hentry, request, hreads, hincludes⟩
    exact ⟨entry, (h entry request hreads).mpr hentry, request, hreads, hincludes⟩

-- The lines that the text behind a language selects are the lines of the block, in order, that
-- an entry in its braces asks for by its number or by a range. Entries of another form make no
-- difference, and what an entry adds to the lines noted down is bounded by the block.
theorem selectedLines_as_requested (fenceMeta : String) (lineCount : Nat) :
    (selectedLines fenceMeta lineCount).Pairwise (· < ·) ∧
    (∀ n, n ∈ selectedLines fenceMeta lineCount ↔ 1 ≤ n ∧ n ≤ lineCount ∧
      ∃ selection, Braced fenceMeta.toList selection ∧ AsksFor selection n) ∧
    ((¬ ∃ selection, Braced fenceMeta.toList selection) →
      selectedLines fenceMeta lineCount = []) ∧
    (∀ other selection selection', Braced fenceMeta.toList selection →
      Braced other.toList selection' →
      (∀ entry request, Reads entry request →
        (entry ∈ selection.splitOn ',' ↔ entry ∈ selection'.splitOn ',')) →
      selectedLines other lineCount = selectedLines fenceMeta lineCount) ∧
    ∀ selection, requestedLines lineCount selection =
        (selection.splitOn ',').flatMap (entryLines lineCount) ∧
      ∀ entry, (entryLines lineCount entry).length ≤ lineCount + 1 := by
  refine ⟨pairwise_selectedLines fenceMeta lineCount, fun n => mem_selectedLines_iff,
    fun hnone => ?_, fun other selection selection' hselection hselection' hsame => ?_,
    fun selection => ⟨?_, length_entryLines_le lineCount⟩⟩
  · refine List.eq_nil_iff_forall_not_mem.mpr fun n hn => hnone ?_
    obtain ⟨-, -, selection, hselection, -⟩ := mem_selectedLines_iff.mp hn
    exact ⟨selection, hselection⟩
  · refine (pairwise_selectedLines other lineCount).eq_of_mem_iff
      (pairwise_selectedLines fenceMeta lineCount) fun n => ?_
    rw [mem_selectedLines_iff, mem_selectedLines_iff, exists_braced_iff hselection,
      exists_braced_iff hselection', asksFor_congr hsame]
  · rw [requestedLines, splitAll_eq_splitOn]

-- Entries in another order and one that is no number; a brace that is not closed.
theorem selectedLines_as_requested_reordered :
    selectedLines "[a.rs] \x7b2-4,1\x7d" 3 = selectedLines "\x7b1,x,2-4\x7d" 3 ∧
      selectedLines "\x7b1" 3 = [] := by
  have hx : ∀ request, ¬ Reads ['x'] request := by
    rintro _ (⟨-, counts⟩ | ⟨-, dashed, -, -⟩)
    · cases natural?_eq_some_iff.mpr counts
    · have hdash : '-' ∈ trim ['x'] := dashed ▸ List.mem_append_right _ List.mem_cons_self
      exact absurd hdash (by decide)
  have hfirst : "1,x,2-4".toList.splitOn ',' = [['1'], ['x'], ['2', '-', '4']] := by decide +kernel
  have hsecond : "2-4,1".toList.splitOn ',' = [['2', '-', '4'], ['1']] := by decide +kernel
  have hbraced : Braced "\x7b1,x,2-4\x7d".toList "1,x,2-4".toList :=
    ⟨[], [], by decide +kernel, by decide +kernel, by decide +kernel⟩
  have hbraced' : Braced "[a.rs] \x7b2-4,1\x7d".toList "2-4,1".toList :=
    ⟨"[a.rs] ".toList, [], by decide +kernel, by decide +kernel, by decide +kernel⟩
  have hopen : ¬ ∃ selection, Braced "\x7b1".toList selection := by
    simp only [← selection?_eq_some_iff]
    rintro ⟨selection, hselection⟩
    cases hselection
  obtain ⟨-, -, -, hsame, -⟩ := selectedLines_as_requested "\x7b1,x,2-4\x7d" 3
  obtain ⟨-, -, hnone, -, -⟩ := selectedLines_as_requested "\x7b1" 3
  refine ⟨hsame _ _ _ hbraced hbraced' fun entry request hreads => ?_, hnone hopen⟩
  have hne : entry ≠ ['x'] := fun he => hx request (he ▸ hreads)
  rw [hfirst, hsecond]
  simp only [List.mem_cons, List.not_mem_nil, or_false, hne, false_or]
  exact or_comm

end CodeBlock

end SyntaxStream
