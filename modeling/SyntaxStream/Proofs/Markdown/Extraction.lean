import SyntaxStream.Proofs.Markdown.Selection
import SyntaxStream.Proofs.Text.Boundary
import SyntaxStream.Proofs.Text.Pieces
import Mathlib.Data.List.Forall2
import Mathlib.Data.List.Infix

namespace SyntaxStream

namespace Markdown

open Text

-- Whether starts and ends of code alternate, from a place inside of code or outside of it.
def alternates : Bool → List Event → Bool
  | _, [] => true
  | inside, .fenced .. :: rest => !inside && alternates true rest
  | inside, .indented _ :: rest => !inside && alternates true rest
  | inside, .codeEnd :: rest => inside && alternates false rest
  | inside, .text _ :: rest => alternates inside rest
  | inside, .other :: rest => alternates inside rest

def Event.start? : Event → Option Nat
  | .fenced offset _ => some offset
  | .indented offset => some offset
  | _ => none

-- What is relied on of the events of a document.
structure ToldOf (document : String) (events : List Event) : Prop where
  alternates : alternates false events = true
  boundaries : ∀ event ∈ events, ∀ offset ∈ event.start?,
    isBoundary (cells document.toList) offset

def Event.text? : Event → Option String
  | .text content => some content
  | _ => none

-- The text up to the next end of code.
def codeText (events : List Event) : String :=
  String.join ((events.takeWhile (· != .codeEnd)).filterMap Event.text?)

-- A fenced block as it is told of: its place, its info string and its text up to its end.
structure FencedText where
  offset : Nat
  info : String
  text : String
deriving DecidableEq

-- The fenced block that a list of events starts with, if there is an end to it.
def fencedText? : List Event → Option FencedText
  | .fenced offset info :: rest =>
    if .codeEnd ∈ rest then some ⟨offset, info, codeText rest⟩ else none
  | _ => none

-- All fenced blocks that have an end, in the order in which they start.
def fencedTexts (events : List Event) : List FencedText := events.tails.filterMap fencedText?

variable {event : Event} {rest : List Event}

theorem fencedTexts_cons :
    fencedTexts (event :: rest) = (fencedText? (event :: rest)).toList ++ fencedTexts rest := by
  rw [fencedTexts, List.tails, List.filterMap_cons]
  cases fencedText? (event :: rest) <;> rfl

@[simp] theorem codeText_text (content : String) (rest : List Event) :
    codeText (.text content :: rest) = content ++ codeText rest := by
  simp [codeText, Event.text?]

@[simp] theorem codeText_codeEnd (rest : List Event) : codeText (.codeEnd :: rest) = "" := by
  simp [codeText]

@[simp] theorem codeText_other (rest : List Event) : codeText (.other :: rest) = codeText rest :=
  rfl

end Markdown

namespace CodeBlock

open Markdown Text

variable {document : String} {event : Event} {events rest : List Event} {p : Progress}
variable {inside : Bool}

-- The block that a fenced block is read as.
def ofFencedText (document : String) (fenced : FencedText) : CodeBlock :=
  let (lang, fenceMeta) := splitInfo fenced.info
  Draft.finish ⟨lang, fenceMeta, lineAt document fenced.offset, fenced.text⟩

-- What becomes of the block that is being read when some events follow.
def Draft.finished? (events : List Event) (d : Draft) : Option CodeBlock :=
  if .codeEnd ∈ events then some (Draft.finish { d with text := d.text ++ codeText events })
  else none

-- The blocks that come of progress and the events that follow.
def Progress.blocks (document : String) (p : Progress) (events : List Event) : List CodeBlock :=
  p.finished ++ (p.current.bind (Draft.finished? events)).toList ++
    (fencedTexts events).map (ofFencedText document)

-- A block is being read only inside of code.
def Progress.Fits (inside : Bool) (p : Progress) : Prop := p.current.isSome = true → inside = true

theorem Progress.Fits.current_eq_none (h : p.Fits false) : p.current = none := by
  cases hc : p.current with
  | none => rfl
  | some d => cases h (by rw [hc]; rfl)

theorem fits_step (document : String) (h : alternates inside (event :: rest) = true)
    (hp : p.Fits inside) :
    ∃ next, alternates next rest = true ∧ (step document p event).Fits next := by
  cases event with
  | fenced offset info =>
    exact ⟨true, (Bool.and_eq_true_iff.mp h).2, fun _ => rfl⟩
  | indented offset =>
    exact ⟨true, (Bool.and_eq_true_iff.mp h).2, fun _ => rfl⟩
  | text content =>
    refine ⟨inside, h, fun hc => hp ?_⟩
    simpa [step] using hc
  | codeEnd =>
    refine ⟨false, (Bool.and_eq_true_iff.mp h).2, fun hc => ?_⟩
    cases hd : p.current <;> simp [step, hd] at hc
  | other => exact ⟨inside, h, hp⟩

-- What an event does to the progress is what it takes from the events that follow.
theorem blocks_step (h : alternates inside (event :: rest) = true) (hp : p.Fits inside) :
    (step document p event).blocks document rest = p.blocks document (event :: rest) := by
  rw [Progress.blocks, Progress.blocks, fencedTexts_cons]
  cases event with
  | fenced offset info =>
    have hinside : inside = false := by simpa using (Bool.and_eq_true_iff.mp h).1
    subst hinside
    by_cases hend : .codeEnd ∈ rest
    · simp [step, hp.current_eq_none, Draft.finished?, fencedText?, hend, ofFencedText]
    · simp [step, hp.current_eq_none, Draft.finished?, fencedText?, hend]
  | indented offset =>
    have hinside : inside = false := by simpa using (Bool.and_eq_true_iff.mp h).1
    subst hinside
    simp [step, hp.current_eq_none, fencedText?]
  | text content =>
    cases hc : p.current with
    | none => simp [step, hc, fencedText?]
    | some d => simp [step, hc, Draft.finished?, fencedText?, String.append_assoc]
  | codeEnd =>
    cases hc : p.current with
    | none => simp [step, hc, fencedText?]
    | some d => simp [step, hc, Draft.finished?, fencedText?]
  | other =>
    cases hc : p.current with
    | none => simp [step, hc, fencedText?]
    | some d => simp [step, hc, Draft.finished?, fencedText?]

theorem finished_foldl (h : alternates inside events = true) (hp : p.Fits inside) :
    (events.foldl (step document) p).finished = p.blocks document events := by
  induction events generalizing p inside with
  | nil =>
    have hnone : p.current.bind (Draft.finished? []) = none := by
      cases p.current <;> rfl
    simp [Progress.blocks, hnone, fencedTexts, fencedText?]
  | cons event rest ih =>
    obtain ⟨next, hnext, hfits⟩ := fits_step document h hp
    rw [List.foldl_cons, ih hnext hfits, blocks_step h hp]

theorem ofEvents_eq (h : alternates false events = true) :
    ofEvents document events = (fencedTexts events).map (ofFencedText document) := by
  have hfits : Progress.Fits false ⟨[], none⟩ := by
    intro hc
    cases hc
  rw [ofEvents, finished_foldl h hfits]
  rfl

-- A newline is one byte long, so that counting bytes that belong to one counts newlines.
theorem countP_newline_cells (cs : List Char) :
    (cells cs).countP (·.char == '\n') = cs.count '\n' := by
  induction cs with
  | nil => rfl
  | cons c cs ih =>
    rw [cells_cons, List.countP_append, ih, List.count_cons, Nat.add_comm, cellsOf]
    by_cases hc : c = '\n'
    · subst hc
      rfl
    · simp [hc, List.countP_replicate]

-- The text before a place is found by its length in bytes.
theorem exists_prefix_of_isBoundary {offset : Nat} (h : isBoundary (cells document.toList) offset) :
    ∃ front rest, document = front ++ rest ∧ front.utf8ByteSize = offset ∧
      lineAt document offset = front.toList.count '\n' + 1 := by
  obtain ⟨xs, ys, hdocument, hx⟩ := exists_append_of_isBoundary h
  refine ⟨String.ofList xs, String.ofList ys, ?_, ?_, ?_⟩
  · rw [← String.ofList_append, ← hdocument, String.ofList_toList]
  · rw [utf8ByteSize_ofList, hx]
  · rw [lineAt, hdocument, cells_append, ← hx, List.take_left, countP_newline_cells,
      String.toList_ofList]

theorem withoutLastNewline_cases (text : String) :
    text = withoutLastNewline text ++ "\n" ∨
      text = withoutLastNewline text ∧ text.toList.getLast? ≠ some '\n' := by
  unfold withoutLastNewline
  by_cases hlast : text.toList.getLast? = some '\n'
  · left
    have hsplit : text.toList = text.toList.dropLast ++ ['\n'] :=
      (List.dropLast_append_getLast? '\n' hlast).symm
    rw [if_pos (beq_iff_eq.mpr hlast), ← String.toList_inj, String.toList_append,
      String.toList_ofList]
    exact hsplit
  · right
    rw [if_neg (by simpa using hlast)]
    exact ⟨rfl, hlast⟩

-- The number of lines that a renderer makes of a code.
def lineTotal (code : String) : Nat := (code.toList.splitOn '\n').length

theorem lineCount_eq (code : String) : lineCount code = lineTotal code := by
  rw [lineCount, splitAll_eq_splitOn, lineTotal]

-- The lines that the text behind a language selects, if there is any.
def marked (fenceMeta : Option String) (total : Nat) : List Nat :=
  (fenceMeta.map (selectedLines · total)).getD []

theorem pairwise_marked (fenceMeta : Option String) (total : Nat) :
    (marked fenceMeta total).Pairwise (· < ·) := by
  cases fenceMeta with
  | none => exact .nil
  | some text => exact pairwise_selectedLines text total

theorem bounds_of_mem_marked {fenceMeta : Option String} {total n : Nat}
    (h : n ∈ marked fenceMeta total) : 1 ≤ n ∧ n ≤ total := by
  cases fenceMeta with
  | none => cases h
  | some text => exact bounds_of_mem_selectedLines h

theorem Draft.highlights_finish (d : Draft) :
    d.finish.highlights = marked d.fenceMeta (lineTotal d.finish.code) := by
  rw [← lineCount_eq, Draft.finish, marked]
  cases d.fenceMeta <;> rfl

-- What a block owes to the fenced block it is read from, and to the document around it.
structure Describes (document : String) (fenced : FencedText) (block : CodeBlock) : Prop where
  info : (block.lang, block.fenceMeta) = splitInfo fenced.info
  code : fenced.text = block.code ++ "\n" ∨
    fenced.text = block.code ∧ fenced.text.toList.getLast? ≠ some '\n'
  line : ∃ front rest, document = front ++ rest ∧ front.utf8ByteSize = fenced.offset ∧
    block.line = front.toList.count '\n' + 1
  selected : block.highlights = marked block.fenceMeta (lineTotal block.code)
  ascending : block.highlights.Pairwise (· < ·)
  bounds : ∀ n ∈ block.highlights, 1 ≤ n ∧ n ≤ lineTotal block.code

theorem describes_ofFencedText {fenced : FencedText}
    (h : isBoundary (cells document.toList) fenced.offset) :
    Describes document fenced (ofFencedText document fenced) := by
  have hselected : (ofFencedText document fenced).highlights =
      marked (ofFencedText document fenced).fenceMeta
        (lineTotal (ofFencedText document fenced).code) := Draft.highlights_finish _
  refine ⟨rfl, withoutLastNewline_cases fenced.text, exists_prefix_of_isBoundary h, hselected,
    ?_, ?_⟩
  · rw [hselected]
    exact pairwise_marked ..
  · intro n hn
    rw [hselected] at hn
    exact bounds_of_mem_marked hn

theorem start_of_fencedText? {fenced : FencedText} (h : fencedText? events = some fenced) :
    ∃ event ∈ events, event.start? = some fenced.offset := by
  unfold fencedText? at h
  split at h
  · split at h
    · cases h
      exact ⟨_, List.mem_cons_self, rfl⟩
    · cases h
  · cases h

theorem isBoundary_of_mem_fencedTexts {fenced : FencedText} (h : ToldOf document events)
    (hf : fenced ∈ fencedTexts events) : isBoundary (cells document.toList) fenced.offset := by
  obtain ⟨tail, htail, hread⟩ := List.mem_filterMap.mp hf
  obtain ⟨event, hevent, hstart⟩ := start_of_fencedText? hread
  exact h.boundaries event (((List.mem_tails ..).mp htail).subset hevent) _ hstart

-- One block for each fenced block that has an end, in the same order.
theorem forall₂_describes (h : ToldOf document events) :
    List.Forall₂ (Describes document) (fencedTexts events) (ofEvents document events) := by
  rw [ofEvents_eq h.alternates, List.forall₂_map_right_iff, List.forall₂_same]
  intro fenced hf
  exact describes_ofFencedText (isBoundary_of_mem_fencedTexts h hf)

end CodeBlock

end SyntaxStream
