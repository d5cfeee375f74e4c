import SyntaxStream.Markdown.Block

namespace SyntaxStream.Markdown

-- Whatever is read of a document, what is left of it is the end of the text that was given.

variable {cs rest : List Char} {containers : List Container}

theorem skipGaps_suffix (cs : List Char) : skipGaps cs <:+ cs := List.dropWhile_suffix _

theorem lineEnd?_suffix (h : lineEnd? cs = some rest) : rest <:+ cs := by
  unfold lineEnd? at h
  split at h
  · cases h
    exact List.nil_suffix
  · cases h
    exact List.suffix_cons ..
  · cases h
    exact (List.suffix_cons ..).trans (List.suffix_cons ..)
  · cases h
    exact List.suffix_cons ..
  · cases h

theorem blankLine?_suffix (h : blankLine? cs = some rest) : rest <:+ cs :=
  (lineEnd?_suffix h).trans (skipGaps_suffix cs)

theorem getD_suffix {found : Option (List Char)} {default : List Char}
    (h : ∀ rest, found = some rest → rest <:+ cs) (hd : default <:+ cs) :
    found.getD default <:+ cs := by
  cases found with
  | none => exact hd
  | some rest => exact h rest rfl

theorem getD_blankLine?_suffix (cs : List Char) : (blankLine? cs).getD cs <:+ cs :=
  getD_suffix (fun _ => blankLine?_suffix) (List.suffix_refl _)

theorem nextLine_suffix (cs : List Char) : nextLine cs <:+ cs :=
  (List.drop_suffix ..).trans (List.dropWhile_suffix _)

theorem afterLine_suffix (cs : List Char) : afterLine cs <:+ cs :=
  getD_suffix (fun _ h => (lineEnd?_suffix h).trans (List.dropWhile_suffix _)) List.nil_suffix

namespace Cursor

theorem take_suffix (wanted : Nat) (rest : List Char) (columns : Nat) :
    (take wanted rest columns).2.rest <:+ rest := by
  fun_induction take wanted rest columns <;> grind [List.suffix_cons, List.IsSuffix.trans]

theorem skip_suffix (wanted : Nat) (c : Cursor) : (c.skip wanted).2.rest <:+ c.rest := by
  rw [skip]
  split
  · exact List.suffix_refl _
  · exact take_suffix ..

theorem skipAll_suffix (wanted : Nat) (c : Cursor) : (c.skipAll wanted).2.rest <:+ c.rest :=
  skip_suffix wanted c

-- A line that ends early does as well as one with all the space that is asked for.
theorem suffix_of_skipAll {wanted : Nat} {c after : Cursor}
    (h : (if (c.skipAll wanted).1 || (c.skipAll wanted).2.atEnd then some (c.skipAll wanted).2
      else none) = some after) : after.rest <:+ c.rest := by
  split at h
  · cases h
    exact c.skipAll_suffix wanted
  · cases h

theorem skipUpTo_suffix (limit : Nat) (c : Cursor) : (c.skipUpTo limit).2.rest <:+ c.rest :=
  skip_suffix limit c

theorem advance_suffix (c : Cursor) (count : Nat) : (c.advance count).rest <:+ c.rest :=
  List.drop_suffix ..

theorem quoteSign?_suffix {c after : Cursor} (h : c.quoteSign? = some after) :
    after.rest <:+ c.rest := by
  unfold quoteSign? at h
  split at h
  · cases h
    exact (skipUpTo_suffix ..).trans (advance_suffix ..)
  · cases h

end Cursor

theorem thematicBreak?_suffix (h : thematicBreak? cs = some rest) : rest <:+ cs := by
  unfold thematicBreak? at h
  split at h
  · cases h
  · split at h
    · dsimp only at h
      split at h
      · exact (lineEnd?_suffix h).trans (List.drop_suffix ..)
      · cases h
    · cases h

theorem underline?_suffix (h : underline? cs = some rest) : rest <:+ cs := by
  unfold underline? at h
  split at h
  · exact (blankLine?_suffix h).trans (List.dropWhile_suffix _)
  · exact (blankLine?_suffix h).trans (List.dropWhile_suffix _)
  · cases h

theorem closingFence?_suffix {fence : Fence} (h : closingFence? fence cs = some rest) :
    rest <:+ cs := by
  unfold closingFence? at h
  dsimp only at h
  split at h
  · cases h
    exact List.nil_suffix
  · split at h
    · cases h
      exact (List.dropWhile_suffix _).trans (List.drop_suffix ..)
    · cases h

section Containers

variable {c after : Cursor} {marker marker' : Marker} {indent : Nat}

theorem Marker.finish_suffix (marker : Marker) (c : Cursor) :
    (marker.finish c).2.rest <:+ c.rest := by
  unfold Marker.finish
  dsimp only
  split
  · exact List.suffix_refl _
  · split
    · exact c.skipUpTo_suffix 4
    · exact List.suffix_refl _

theorem Marker.space?_suffix (h : Marker.space? c = some after) : after.rest <:+ c.rest :=
  Cursor.suffix_of_skipAll h

-- Behind a sign of some length stands the space that has to follow a marker.
theorem Marker.finish_space?_suffix {length : Nat}
    (h : (Marker.space? (c.advance length)).map (fun c => marker.finish c) =
      some (marker', after)) : after.rest <:+ c.rest := by
  obtain ⟨spaced, hs, hf⟩ := Option.map_eq_some_iff.mp h
  have hafter : (marker.finish spaced).2 = after := by rw [hf]
  rw [← hafter]
  exact (marker.finish_suffix spaced).trans ((space?_suffix hs).trans (c.advance_suffix length))

theorem Marker.read?_suffix (h : Marker.read? indent c = some (marker, after)) :
    after.rest <:+ c.rest := by
  unfold Marker.read? at h
  dsimp only at h
  repeat' split at h
  all_goals first
    | cases h
    | exact finish_space?_suffix h

theorem taskSign?_suffix (h : taskSign? c = some after) : after.rest <:+ c.rest := by
  unfold taskSign? at h
  dsimp only at h
  split at h
  · split at h
    · cases h
      exact (Cursor.advance_suffix ..).trans (c.skipUpTo_suffix 3)
    · cases h
  · cases h

theorem Container.continues?_suffix {container : Container}
    (h : container.continues? c = some after) : after.rest <:+ c.rest := by
  cases container with
  | quote => exact (Cursor.quoteSign?_suffix h).trans (c.skipUpTo_suffix 3)
  | list sign =>
    cases h
    exact List.suffix_refl _
  | item indent => exact Cursor.suffix_of_skipAll h
  | footnote => exact Cursor.suffix_of_skipAll h

theorem matchContainers_suffix (containers : List Container) (c : Cursor) :
    (matchContainers containers c).2.rest <:+ c.rest := by
  induction containers generalizing c with
  | nil => exact List.suffix_refl _
  | cons container inner ih =>
    rw [matchContainers]
    split
    · exact List.suffix_refl _
    · next after hafter => exact (ih after).trans (Container.continues?_suffix hafter)

theorem enter_suffix (containers : List Container) (cs : List Char) :
    (enter containers cs).2.rest <:+ cs :=
  matchContainers_suffix containers (.ofRest cs)

end Containers

section Tables

variable {rule : TableRule}

theorem TableRule.finish_suffix {p : Progress} (h : TableRule.finish p cs = some rule) :
    rule.rest <:+ cs := by
  unfold TableRule.finish at h
  split at h
  · cases h
    exact List.suffix_refl _
  · cases h

theorem TableRule.scan_suffix {p : Progress} (h : TableRule.scan p cs = some rule) :
    rule.rest <:+ cs := by
  induction cs generalizing p with
  | nil => exact finish_suffix h
  | cons c cs ih =>
    unfold TableRule.scan at h
    split at h
    · exact (finish_suffix h).trans (getD_suffix (fun _ => lineEnd?_suffix) List.nil_suffix)
    · repeat' split at h
      all_goals first
        | cases h
        | exact (ih h).trans (List.suffix_cons ..)

theorem TableRule.read?_suffix (h : TableRule.read? cs = some rule) : rule.rest <:+ cs := by
  unfold TableRule.read? at h
  dsimp only at h
  split at h
  · cases h
  · split at h
    · next rest hrest =>
      have hdrop : '|' :: rest <:+ cs := hrest ▸ List.dropWhile_suffix _
      exact (scan_suffix h).trans ((List.suffix_cons ..).trans hdrop)
    · exact scan_suffix h

theorem tableRule?_suffix (h : tableRule? containers cs = some rule) : rule.rest <:+ cs := by
  obtain ⟨_, -, h⟩ := Option.bind_eq_some_iff.mp h
  obtain ⟨_, -, h⟩ := Option.bind_eq_some_iff.mp h
  obtain ⟨_, hread, h⟩ := Option.bind_eq_some_iff.mp h
  obtain ⟨_, -, h⟩ := Option.bind_eq_some_iff.mp h
  cases h
  exact (TableRule.read?_suffix hread).trans
    ((enter_suffix containers _).trans (afterLine_suffix cs))

end Tables

section Labels

variable {startOfLine : List Char → Option (List Char)} {fuel : Nat}

theorem labelEnd?_suffix (hs : ∀ cs rest, startOfLine cs = some rest → rest <:+ cs)
    {s : LabelState} (h : labelEnd? startOfLine fuel s cs = some rest) : rest <:+ cs := by
  induction fuel generalizing s cs with
  | zero => cases h
  | succ fuel ih =>
    unfold labelEnd? at h
    split at h
    · cases h
    · split at h
      · cases h
      · next c cs =>
        have hc := List.suffix_cons c cs
        split at h
        · cases h
        split at h
        · split at h
          · cases h
            exact hc
          · cases h
        split at h
        · exact (ih h).trans ((List.drop_suffix ..).trans hc)
        split at h
        · split at h
          · next after hafter =>
            split at h
            · cases h
            · obtain ⟨line, hline, h⟩ := Option.bind_eq_some_iff.mp h
              exact (ih h).trans ((hs _ _ hline).trans (lineEnd?_suffix hafter))
          · exact (ih h).trans hc
        · exact (ih h).trans hc

theorem label?_suffix (hs : ∀ cs rest, startOfLine cs = some rest → rest <:+ cs)
    (h : label? startOfLine cs = some rest) : rest <:+ cs :=
  labelEnd?_suffix hs h

theorem footnoteLabel?_suffix (h : footnoteLabel? cs = some rest) : rest <:+ cs := by
  unfold footnoteLabel? at h
  split at h
  · split at h
    · next after hlabel =>
      cases h
      have hinner := label?_suffix (fun _ _ h => by cases h) hlabel
      exact (List.suffix_cons ..).trans
        (hinner.trans ((List.suffix_cons ..).trans (List.suffix_cons ..)))
    · cases h
  · cases h

end Labels

namespace Reference

variable {fuel depth newlines : Nat} {closing : Char}

theorem startOfLine?_suffix (h : startOfLine? containers cs = some rest) : rest <:+ cs := by
  unfold startOfLine? at h
  dsimp only at h
  split at h
  · cases h
  · cases h
    exact (Cursor.skipAll_suffix ..).trans (enter_suffix containers cs)

theorem space?_suffix (h : space? containers cs = some (newlines, rest)) : rest <:+ cs := by
  unfold space? at h
  dsimp only at h
  split at h
  · cases h
    exact skipGaps_suffix cs
  · next after hafter =>
    obtain ⟨line, hline, h⟩ := Option.bind_eq_some_iff.mp h
    split at h
    · cases h
    · cases h
      exact (skipGaps_suffix line).trans ((startOfLine?_suffix hline).trans
        ((lineEnd?_suffix hafter).trans (skipGaps_suffix cs)))

theorem bracketed?_suffix (h : bracketed? cs = some rest) : rest <:+ cs := by
  fun_induction bracketed? cs <;> grind [List.suffix_cons, List.IsSuffix.trans]

theorem unbracketed?_suffix (h : unbracketed? depth cs = some rest) : rest <:+ cs := by
  fun_induction unbracketed? depth cs <;>
    grind [List.suffix_cons, List.IsSuffix.trans, List.suffix_refl]

theorem destination?_suffix (h : destination? cs = some rest) : rest <:+ cs := by
  unfold destination? at h
  split at h
  · exact (bracketed?_suffix h).trans (List.suffix_cons ..)
  · split at h
    · next after hafter =>
      split at h
      · cases h
        exact unbracketed?_suffix hafter
      · cases h
    · cases h

theorem titleEnd?_suffix (h : titleEnd? containers closing fuel cs = some rest) : rest <:+ cs := by
  induction fuel generalizing cs with
  | zero => cases h
  | succ fuel ih =>
    unfold titleEnd? at h
    split at h
    · cases h
    · obtain ⟨line, hline, h⟩ := Option.bind_eq_some_iff.mp h
      exact (ih h).trans ((List.dropWhile_suffix _).trans
        ((startOfLine?_suffix hline).trans (List.suffix_cons ..)))
    · exact (ih h).trans ((List.drop_suffix ..).trans (List.suffix_cons ..))
    · split at h
      · cases h
        exact List.suffix_cons ..
      · exact (ih h).trans (List.suffix_cons ..)

theorem title?_suffix (h : title? containers cs = some rest) : rest <:+ cs := by
  unfold title? at h
  split at h
  · cases h
  · dsimp only at h
    split at h
    · exact (titleEnd?_suffix h).trans (List.suffix_cons ..)
    · split at h
      · exact (titleEnd?_suffix h).trans (List.suffix_cons ..)
      · cases h

theorem afterDestination?_suffix (h : afterDestination? containers cs = some rest) :
    rest <:+ cs := by
  unfold afterDestination? at h
  split at h
  · cases h
    exact List.suffix_refl _
  · next newlines start hstart =>
    split at h
    · cases h
    · split at h
      · next after hafter =>
        split at h
        · cases h
          exact (title?_suffix hafter).trans (space?_suffix hstart)
        · split at h
          · cases h
          · cases h
            exact List.suffix_refl _
      · split at h
        · cases h
        · cases h
          exact List.suffix_refl _

theorem read?_suffix (h : read? containers cs = some rest) : rest <:+ cs := by
  unfold read? at h
  split at h
  · next inner =>
    split at h
    · next after hlabel =>
      simp only [Option.bind_eq_bind, Option.bind_eq_some_iff, Option.pure_def,
        Option.some.injEq, Prod.exists] at h
      obtain ⟨_, start, hspace, behind, hdestination, last, hafter, rfl⟩ := h
      have hcolon : ':' :: after <:+ '[' :: inner :=
        (label?_suffix (fun _ _ => startOfLine?_suffix) hlabel).trans (List.suffix_cons ..)
      have hstart : start <:+ '[' :: inner :=
        (space?_suffix hspace).trans ((List.suffix_cons ..).trans hcolon)
      have hlast : last <:+ start :=
        (afterDestination?_suffix hafter).trans (destination?_suffix hdestination)
      exact (getD_blankLine?_suffix last).trans (hlast.trans hstart)
    · cases h
  · cases h

end Reference

section Blocks

theorem afterMarkup_suffix {ending : String} {fuel : Nat} :
    afterMarkup containers ending fuel cs <:+ cs := by
  induction fuel generalizing cs with
  | zero => exact List.nil_suffix
  | succ fuel ih =>
    rw [afterMarkup]
    dsimp only
    split
    · exact nextLine_suffix cs
    · exact ih.trans ((enter_suffix ..).trans (nextLine_suffix cs))

theorem afterTagBlock_suffix {fuel : Nat} : afterTagBlock containers fuel cs <:+ cs := by
  induction fuel generalizing cs with
  | zero => exact List.nil_suffix
  | succ fuel ih =>
    rw [afterTagBlock]
    dsimp only
    split
    · exact nextLine_suffix cs
    · exact ih.trans ((enter_suffix ..).trans (nextLine_suffix cs))

theorem afterIndented_suffix {fuel : Nat} : afterIndented containers fuel cs <:+ cs := by
  induction fuel generalizing cs with
  | zero => exact List.nil_suffix
  | succ fuel ih =>
    rw [afterIndented]
    dsimp only
    split
    · exact nextLine_suffix cs
    · exact ih.trans ((Cursor.skipAll_suffix ..).trans
        ((enter_suffix ..).trans (nextLine_suffix cs)))

theorem fencedLines_suffix {fence : Fence} {indent fuel : Nat} :
    (fencedLines containers fence indent fuel cs).2 <:+ cs := by
  induction fuel generalizing cs with
  | zero => exact List.nil_suffix
  | succ fuel ih =>
    have hindent := (Cursor.skipUpTo_suffix indent (enter containers cs).2).trans
      (enter_suffix containers cs)
    rw [fencedLines]
    dsimp only
    split
    · exact List.suffix_refl _
    · split
      · next after hclosing =>
        split at hclosing
        · cases hclosing
        · exact (getD_blankLine?_suffix after).trans
            ((closingFence?_suffix hclosing).trans ((Cursor.skipAll_suffix ..).trans hindent))
      · exact ih.trans ((nextLine_suffix _).trans hindent)

theorem afterRows_suffix {fuel : Nat} : afterRows containers fuel cs <:+ cs := by
  induction fuel generalizing cs with
  | zero => exact List.nil_suffix
  | succ fuel ih =>
    rw [afterRows]
    dsimp only
    -- the first cases are those of a pipe before the row
    split <;> split
    all_goals first
      | exact List.suffix_refl _
      | exact ih.trans ((afterLine_suffix _).trans
          ((List.dropWhile_suffix _).trans (enter_suffix containers cs)))

theorem afterParagraph_suffix {fuel : Nat} : afterParagraph containers fuel cs <:+ cs := by
  induction fuel generalizing cs with
  | zero => exact List.nil_suffix
  | succ fuel ih =>
    have hstart : ((enter containers (afterLine cs)).2.skipAll 4).2.rest <:+ cs :=
      (Cursor.skipAll_suffix ..).trans ((enter_suffix ..).trans (afterLine_suffix cs))
    rw [afterParagraph]
    dsimp only
    split
    · next after hheading =>
      split at hheading
      · exact (underline?_suffix hheading).trans hstart
      · cases hheading
    · split
      · exact afterLine_suffix cs
      · exact ih.trans ((List.dropWhile_suffix _).trans hstart)

theorem afterText_suffix (containers : List Container) (cs : List Char) :
    afterText containers cs <:+ cs := by
  unfold afterText
  split
  · next rule hrule => exact afterRows_suffix.trans (tableRule?_suffix hrule)
  · exact afterParagraph_suffix

theorem markup?_suffix (h : markup? containers cs = some rest) : rest <:+ cs := by
  unfold markup? at h
  split at h
  · split at h
    · cases h
      exact afterMarkup_suffix
    · split at h
      · cases h
        exact afterTagBlock_suffix
      · cases h
  · cases h

end Blocks

end SyntaxStream.Markdown
