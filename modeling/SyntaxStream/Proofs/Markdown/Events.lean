import SyntaxStream.Proofs.Markdown.Extraction
import SyntaxStream.Proofs.Markdown.Rests

namespace SyntaxStream.Markdown

open Text

-- Events that leave code as often as they enter it, wherever they stand outside of code.
def Closed (events : List Event) : Prop :=
  ∀ rest, alternates false (events ++ rest) = alternates false rest

theorem Closed.append {xs ys : List Event} (hx : Closed xs) (hy : Closed ys) :
    Closed (xs ++ ys) := by
  intro rest
  rw [List.append_assoc, hx, hy]

theorem closed_fenced (offset : Nat) (info : String) (lines : List String) :
    Closed (.fenced offset info :: lines.map .text ++ [.codeEnd]) := by
  have hlines (rest : List Event) :
      alternates true (lines.map .text ++ rest) = alternates true rest := by
    induction lines with
    | nil => rfl
    | cons line lines ih => exact ih
  intro rest
  rw [List.cons_append, List.cons_append, List.append_assoc]
  exact hlines _

variable {document : String} {s : BlockState} {cs rest : List Char}

-- What is known of the state between two blocks of a document: its events are closed, and what
-- starts does so at the start of a character.
structure BlockState.Sound (document : String) (s : BlockState) : Prop where
  size : s.size = byteLength document.toList
  closed : Closed s.events.reverse
  boundaries : ∀ event ∈ s.events, ∀ offset ∈ event.start?,
    isBoundary (cells document.toList) offset

namespace BlockState

-- Containers come and go without a change of this.
def told (s : BlockState) : Nat × List Event := (s.size, s.events)

theorem Sound.of_told {s' : BlockState} (h : s.Sound document) (ht : s'.told = s.told) :
    s'.Sound document := by
  obtain ⟨hsize, hevents⟩ := Prod.mk.inj ht
  exact ⟨hsize ▸ h.size, hevents ▸ h.closed, hevents ▸ h.boundaries⟩

@[simp] theorem told_keep (s : BlockState) (count : Nat) : (s.keep count).told = s.told := rfl

@[simp] theorem told_pop (s : BlockState) : s.pop.told = s.told := rfl

@[simp] theorem told_push (s : BlockState) (container : Container) :
    (s.push container).told = s.told := rfl

@[simp] theorem told_finishEmptyItem (s : BlockState) : s.finishEmptyItem.told = s.told := by
  unfold finishEmptyItem
  dsimp only
  split <;> rfl

@[simp] theorem told_finishList (s : BlockState) : s.finishList.told = s.told := by
  rw [← told_finishEmptyItem s]
  unfold finishList
  dsimp only
  split <;> rfl

@[simp] theorem told_continueList (s : BlockState) (sign : Char) :
    (s.continueList sign).told = s.told := by
  unfold continueList
  dsimp only
  split
  · exact told_finishEmptyItem s
  · rw [told_push, told_finishList, told_finishEmptyItem]

@[simp] theorem told_openFootnote (s : BlockState) : s.openFootnote.told = s.told := by
  unfold openFootnote
  dsimp only
  split <;> simp

theorem told_noteBlank (s : BlockState) : s.noteBlank.told = s.told := by
  unfold noteBlank
  split
  · rfl
  · split <;> rfl
  · rfl

theorem Sound.emit {events : List Event} (h : s.Sound document) (hc : Closed events)
    (hb : ∀ event ∈ events, ∀ offset ∈ event.start?,
      isBoundary (cells document.toList) offset) : (s.emit events).Sound document where
  size := h.size
  closed := by
    rw [BlockState.emit, List.reverse_append, List.reverse_reverse]
    exact h.closed.append hc
  boundaries event he := by
    rcases List.mem_append.mp he with he | he
    · exact hb event (List.mem_reverse.mp he)
    · exact h.boundaries event he

theorem Sound.isBoundary_offsetOf (h : s.Sound document) (hr : rest <:+ document.toList) :
    isBoundary (cells document.toList) (s.offsetOf rest) := by
  obtain ⟨front, hfront⟩ := hr
  have hoffset : s.offsetOf rest = (cells front).length := by
    rw [offsetOf, h.size, ← hfront, byteLength_append, length_cells, Nat.add_sub_cancel]
  rw [hoffset, ← hfront]
  exact isBoundary_cells_append front rest

end BlockState

open BlockState

def Opened.state : Opened → BlockState
  | line s _ => s
  | ended s _ => s

def Opened.text : Opened → List Char
  | line _ c => c.rest
  | ended _ rest => rest

theorem openContainers_keeps (fuel : Nat) (s : BlockState) (c : Cursor) :
    (openContainers fuel s c).state.told = s.told ∧
      (openContainers fuel s c).text <:+ c.rest := by
  induction fuel generalizing s c with
  | zero => exact ⟨rfl, List.suffix_refl _⟩
  | succ fuel ih =>
    have hinner (s' : BlockState) (c' : Cursor) (hs : s'.told = s.told)
        (hc : c'.rest <:+ c.rest) : (openContainers fuel s' c').state.told = s.told ∧
          (openContainers fuel s' c').text <:+ c.rest :=
      ⟨(ih s' c').1.trans hs, (ih s' c').2.trans hc⟩
    have hstart := c.skipUpTo_suffix 4
    unfold openContainers
    dsimp only
    split
    · exact ⟨rfl, List.suffix_refl _⟩
    split
    · next rest hrest =>
      exact hinner _ _ (told_openFootnote s)
        ((skipGaps_suffix rest).trans ((footnoteLabel?_suffix hrest).trans hstart))
    split
    · next marker after hmarker =>
      have hitem : ((s.continueList marker.sign).push (.item marker.indent)).told = s.told :=
        told_continueList s marker.sign
      have hafter := (Marker.read?_suffix hmarker).trans hstart
      split
      · next rest hrest => exact ⟨hitem, (blankLine?_suffix hrest).trans hafter⟩
      split
      · exact hinner _ _ hitem hafter
      · next task htask =>
        have htask := (taskSign?_suffix htask).trans hafter
        split
        · next rest hrest => exact ⟨hitem, (blankLine?_suffix hrest).trans htask⟩
        · exact hinner _ _ hitem htask
    split
    · next after hafter =>
      exact hinner _ _ (told_finishList s) ((Cursor.quoteSign?_suffix hafter).trans hstart)
    · exact ⟨rfl, List.suffix_refl _⟩

theorem fencedBlock_sound {fence : Fence} {indent : Nat} (h : s.Sound document)
    (hcs : cs <:+ document.toList) : (fencedBlock s fence indent cs).1.Sound document ∧
      (fencedBlock s fence indent cs).2 <:+ cs := by
  unfold fencedBlock
  dsimp only
  constructor
  · refine h.emit (closed_fenced _ _ _) ?_
    intro event he offset hoffset
    rw [List.cons_append, List.mem_cons, List.mem_append] at he
    rcases he with rfl | he | he
    · obtain rfl := Option.some.inj hoffset
      exact h.isBoundary_offsetOf hcs
    · obtain ⟨line, -, rfl⟩ := List.mem_map.mp he
      cases hoffset
    · obtain rfl := List.mem_singleton.mp he
      cases hoffset
  · exact fencedLines_suffix.trans ((nextLine_suffix _).trans
      ((skipGaps_suffix _).trans (List.drop_suffix ..)))

theorem leafBlock_sound {indent : Nat} (h : s.Sound document) (hcs : cs <:+ document.toList) :
    (leafBlock s indent cs).1.Sound document ∧ (leafBlock s indent cs).2 <:+ cs := by
  unfold leafBlock
  split
  · next rest hrest => exact ⟨h, markup?_suffix hrest⟩
  split
  · next rest hrest => exact ⟨h, thematicBreak?_suffix hrest⟩
  split
  · exact ⟨h, afterLine_suffix cs⟩
  split
  · exact fencedBlock_sound h hcs
  split
  · next rest hrest => exact ⟨h, Reference.read?_suffix hrest⟩
  · exact ⟨h, afterText_suffix s.containers cs⟩

theorem indented_sound (h : s.Sound document) (hcs : cs <:+ document.toList) :
    (s.emit [.indented (s.offsetOf cs), .codeEnd]).Sound document := by
  refine h.emit (fun rest => rfl) ?_
  intro event he offset hoffset
  rcases List.mem_pair.mp he with rfl | rfl
  · obtain rfl := Option.some.inj hoffset
    exact h.isBoundary_offsetOf hcs
  · cases hoffset

theorem block_sound (h : s.Sound document) (hcs : cs <:+ document.toList) :
    (block s cs).1.Sound document ∧ (block s cs).2 <:+ cs := by
  have hmatched := matchContainers_suffix s.containers (.ofRest cs)
  unfold block
  dsimp only
  generalize matchContainers s.containers (.ofRest cs) = found at hmatched ⊢
  have hopened := openContainers_keeps (cs.length + 1) (s.keep found.1) found.2
  split
  · next s' rest heq =>
    rw [heq] at hopened
    exact ⟨h.of_told hopened.1, hopened.2.trans hmatched⟩
  · next s' c heq =>
    rw [heq] at hopened
    have hs' : s'.Sound document := h.of_told hopened.1
    have hc : c.rest <:+ cs := hopened.2.trans hmatched
    split
    · next rest hrest =>
      exact ⟨hs'.of_told (told_noteBlank s'), (blankLine?_suffix hrest).trans hc⟩
    · have hlist := hs'.of_told (told_finishList s')
      have hstart : (c.skipUpTo 4).2.rest <:+ cs := (c.skipUpTo_suffix 4).trans hc
      split
      · exact ⟨indented_sound hlist (hstart.trans hcs), afterIndented_suffix.trans hstart⟩
      · obtain ⟨hsound, hrest⟩ := leafBlock_sound hlist (hstart.trans hcs)
        exact ⟨hsound, hrest.trans hstart⟩

theorem blocks_sound (fuel : Nat) (h : s.Sound document) (hcs : cs <:+ document.toList) :
    (blocks fuel s cs).Sound document := by
  induction fuel generalizing s cs with
  | zero => exact h
  | succ fuel ih =>
    unfold blocks
    split
    · exact h
    · have hblock := block_sound h hcs
      exact ih hblock.1 (hblock.2.trans hcs)

-- What is relied on of the events of a document is true of those it is read as.
theorem toldOf_events (document : String) : ToldOf document (events document) := by
  have hstart : BlockState.Sound document ⟨byteLength document.toList, [], false, false, []⟩ :=
    ⟨rfl, fun _ => rfl, fun _ he => absurd he List.not_mem_nil⟩
  have hend := blocks_sound document.toList.length hstart (List.suffix_refl _)
  constructor
  · have hclosed := hend.closed []
    rwa [List.append_nil] at hclosed
  · intro event he
    exact hend.boundaries event (List.mem_reverse.mp he)

end SyntaxStream.Markdown
