import SyntaxStream.Proofs.Highlight.Lines

namespace SyntaxStream

namespace Html

-- Deletes every region from an opening angle bracket to the next closing one.
def withoutTags : List Char → List Char
  | [] => []
  | c :: rest =>
    if c = '<' then
      match _h : rest.dropWhile (· != '>') with
      | [] => c :: rest
      | _ :: after => withoutTags after
    else c :: withoutTags rest
termination_by cs => cs.length
decreasing_by
  · have hle := (List.dropWhile_suffix (l := rest) (· != '>')).length_le
    rw [_h, List.length_cons] at hle
    rw [List.length_cons]
    omega
  · simp

-- The characters that have names, with their names.
def entities : List (List Char × Char) :=
  [("&amp;".toList, '&'), ("&lt;".toList, '<'), ("&gt;".toList, '>'), ("&quot;".toList, '"')]

-- The character whose name a text starts with.
def entity? (cs : List Char) : Option (List Char × Char) :=
  entities.find? fun entity => entity.1.isPrefixOf cs

-- Puts characters in the place of their names. What a name stands for is not read again.
def decode : List Char → List Char
  | [] => []
  | c :: rest =>
    match entity? (c :: rest) with
    | some (name, named) => named :: decode (rest.drop (name.length - 1))
    | none => c :: decode rest
termination_by cs => cs.length
decreasing_by
  · rw [List.length_drop, List.length_cons]
    omega
  · simp

-- The text that markup shows.
def shownText (markup : String) : String := String.ofList (decode (withoutTags markup.toList))

variable {c : Char} {inner rest cs : List Char}

theorem withoutTags_append (h : '<' ∉ cs) (rest : List Char) :
    withoutTags (cs ++ rest) = cs ++ withoutTags rest := by
  induction cs with
  | nil => rfl
  | cons c cs ih =>
    rw [List.mem_cons, not_or] at h
    rw [List.cons_append, withoutTags, if_neg (Ne.symm h.1), ih h.2, List.cons_append]

theorem withoutTags_tag (h : '>' ∉ inner) (rest : List Char) :
    withoutTags ('<' :: (inner ++ '>' :: rest)) = withoutTags rest := by
  have hdrop : (inner ++ '>' :: rest).dropWhile (· != '>') = '>' :: rest := by
    rw [List.dropWhile_append_of_pos]
    · simp
    · intro c hc
      rw [bne_iff_ne]
      rintro rfl
      exact h hc
  rw [withoutTags, if_pos rfl]
  split
  · rename_i hnil
    rw [hdrop] at hnil
    cases hnil
  · rename_i hcons
    rw [hdrop] at hcons
    rw [(List.cons.inj hcons).2]

-- The characters that are written by their names.
def named : List Char := ['&', '<', '>', '"']

-- A name is found again whatever follows it, and has no bracket in it.
theorem exists_name_of_mem (h : c ∈ named) :
    ∃ name, escapeChar c = '&' :: name ∧ '<' ∉ name ∧ '>' ∉ name ∧
      ∀ rest, entity? ('&' :: (name ++ rest)) = some ('&' :: name, c) := by
  simp only [named, List.mem_cons, List.not_mem_nil, or_false] at h
  rcases h with rfl | rfl | rfl | rfl
  all_goals exact ⟨_, rfl, by decide, by decide, fun _ => rfl⟩

theorem escapeChar_of_notMem (h : c ∉ named) : escapeChar c = [c] := by
  simp only [named, List.mem_cons, List.not_mem_nil, or_false, not_or] at h
  unfold escapeChar
  split <;> simp_all

-- All names start alike.
theorem entity?_of_ne (h : c ≠ '&') (rest : List Char) : entity? (c :: rest) = none := by
  rw [entity?, List.find?_eq_none]
  intro entity hm
  simp only [entities, List.mem_cons, List.not_mem_nil, or_false] at hm
  rcases hm with rfl | rfl | rfl | rfl
  all_goals
    intro hprefix
    exact h (eq_of_beq (Bool.and_eq_true_iff.mp hprefix).1).symm

theorem decode_escapeChar (c : Char) (rest : List Char) :
    decode (escapeChar c ++ rest) = c :: decode rest := by
  by_cases hc : c ∈ named
  · obtain ⟨name, hname, -, -, hentity⟩ := exists_name_of_mem hc
    rw [hname, List.cons_append, decode, hentity]
    simp only [List.length_cons, Nat.add_sub_cancel, List.drop_left]
  · rw [escapeChar_of_notMem hc, List.singleton_append, decode, entity?_of_ne]
    rintro rfl
    exact hc List.mem_cons_self

-- Names are read back as the characters they stand for, and nothing else is.
theorem decode_escape (s : String) : decode (escape s).toList = s.toList := by
  rw [escape, String.toList_ofList]
  induction s.toList with
  | nil => rw [List.flatMap_nil, decode]
  | cons c cs ih => rw [List.flatMap_cons, decode_escapeChar, ih]

theorem notMem_escape (s : String) : '<' ∉ (escape s).toList ∧ '>' ∉ (escape s).toList := by
  have hchar : ∀ c, '<' ∉ escapeChar c ∧ '>' ∉ escapeChar c := by
    intro c
    by_cases hc : c ∈ named
    · obtain ⟨name, hname, hlt, hgt, -⟩ := exists_name_of_mem hc
      rw [hname]
      exact ⟨List.not_mem_cons_of_ne_of_not_mem (by decide) hlt,
        List.not_mem_cons_of_ne_of_not_mem (by decide) hgt⟩
    · rw [escapeChar_of_notMem hc, List.mem_singleton, List.mem_singleton]
      constructor
      · rintro rfl
        exact hc (by decide)
      · rintro rfl
        exact hc (by decide)
  rw [escape, String.toList_ofList]
  constructor
  · intro hm
    obtain ⟨c, -, hc⟩ := List.mem_flatMap.mp hm
    exact (hchar c).1 hc
  · intro hm
    obtain ⟨c, -, hc⟩ := List.mem_flatMap.mp hm
    exact (hchar c).2 hc

theorem escape_append (s t : String) : escape (s ++ t) = escape s ++ escape t := by
  rw [escape, String.toList_append, List.flatMap_append, String.ofList_append]
  rfl

-- A name that can stand within a tag.
def IsName (s : String) : Prop := '<' ∉ s.toList ∧ '>' ∉ s.toList

instance (s : String) : Decidable (IsName s) := inferInstanceAs (Decidable (_ ∧ _))

theorem notMem_propertyMarkup {entry : String × Json} (h : IsName entry.1) :
    '>' ∉ (propertyMarkup entry).toList := by
  have hvalue := (notMem_escape (propertyText entry.2)).2
  simp [propertyMarkup, h.2, hvalue]

-- Nothing within an opening tag ends it too early.
theorem notMem_openTag {tag : String} {properties : Dict Json} (ht : IsName tag)
    (hp : ∀ entry ∈ properties.entries, IsName entry.1) :
    '>' ∉ (tag ++ String.join (properties.entries.map propertyMarkup)).toList := by
  rw [String.toList_append, String.toList_join, List.mem_append, List.mem_flatMap]
  rintro (hm | ⟨markup, hmarkup, hm⟩)
  · exact ht.2 hm
  · obtain ⟨entry, hentry, rfl⟩ := List.mem_map.mp hmarkup
    exact notMem_propertyMarkup (hp entry hentry) hm

end Html

namespace Node

mutual

-- Whether the names of a node and of all nodes within it are without brackets.
def IsNamed : Node → Prop
  | text _ => True
  | element tag properties children =>
    Html.IsName tag ∧ (∀ entry ∈ properties.entries, Html.IsName entry.1) ∧ AreNamed children

def AreNamed : List Node → Prop
  | [] => True
  | node :: rest => node.IsNamed ∧ AreNamed rest

end

theorem areNamed_iff {nodes : List Node} : AreNamed nodes ↔ ∀ node ∈ nodes, node.IsNamed := by
  induction nodes with
  | nil => simp [AreNamed]
  | cons node rest ih => simp [AreNamed, ih]

mutual

theorem withoutTags_toHtml : (node : Node) → node.IsNamed → (rest : List Char) →
    Html.withoutTags (node.toHtml.toList ++ rest) =
      (Html.escape node.textContent).toList ++ Html.withoutTags rest
  | text value, _, rest => Html.withoutTags_append (Html.notMem_escape value).1 rest
  | element tag properties children, h, rest => by
    rw [IsNamed] at h
    obtain ⟨htag, hproperties, hchildren⟩ := h
    have hopen := Html.notMem_openTag htag hproperties
    have hclose : '>' ∉ '/' :: tag.toList :=
      List.not_mem_cons_of_ne_of_not_mem (by decide) htag.2
    have hmarkup : (element tag properties children).toHtml.toList ++ rest =
        '<' :: ((tag ++ String.join (properties.entries.map Html.propertyMarkup)).toList ++ '>' ::
          ((htmlOf children).toList ++ '<' :: ('/' :: tag.toList ++ '>' :: rest))) := by
      simp [toHtml]
    rw [hmarkup, Html.withoutTags_tag hopen, withoutTags_htmlOf children hchildren,
      Html.withoutTags_tag hclose, textContent]

theorem withoutTags_htmlOf : (nodes : List Node) → AreNamed nodes → (rest : List Char) →
    Html.withoutTags ((htmlOf nodes).toList ++ rest) =
      (Html.escape (contentOf nodes)).toList ++ Html.withoutTags rest
  | [], _, rest => by
    rfl
  | node :: nodes, h, rest => by
    rw [AreNamed] at h
    rw [htmlOf, contentOf, String.toList_append, List.append_assoc, withoutTags_toHtml node h.1,
      withoutTags_htmlOf nodes h.2, Html.escape_append, String.toList_append, List.append_assoc]

end

end Node

namespace HighlightResult

variable {result : HighlightResult}

-- A result whose names are without brackets, at whatever depth.
structure IsNamed (result : HighlightResult) : Prop where
  tree : Node.AreNamed result.tree

theorem isNamed_plain (code : String) : (plain code).IsNamed := ⟨trivial, trivial⟩

-- Nothing in the tag around a block ends it too early.
theorem notMem_wrapper {className style : List Char} (hc : '>' ∉ className) (hs : '>' ∉ style) :
    '>' ∉ "pre class=\"".toList ++ (className ++ ("\" style=\"".toList ++ (style ++ ['"']))) := by
  simp only [List.mem_append, hc, hs, false_or, not_or]
  decide

theorem toList_toHtml (result : HighlightResult) :
    result.toHtml.toList =
      '<' :: (("pre class=\"".toList ++ ((Html.escape result.className).toList ++
          ("\" style=\"".toList ++ ((Html.escape result.style).toList ++ ['"'])))) ++
        '>' :: '<' :: ("code".toList ++ '>' :: ((Node.htmlOf result.tree).toList ++
          '<' :: ("/code".toList ++ '>' :: '<' :: ("/pre".toList ++ ['>']))))) := by
  -- stated with variables, as the fixed parts are slow to compare
  have hparts : ∀ a b c d e f g : String, (a ++ b ++ c ++ d ++ e ++ f ++ g).toList =
      a.toList ++ (b.toList ++ (c.toList ++ (d.toList ++ (e.toList ++
        (f.toList ++ g.toList))))) := by
    simp
  rw [List.append_assoc, List.append_assoc, List.append_assoc, List.append_assoc]
  exact hparts _ _ _ _ _ _ _

-- The markup of a result shows its text.
theorem shownText_toHtml (h : result.IsNamed) :
    Html.shownText result.toHtml = result.textContent := by
  have hclass := (Html.notMem_escape result.className).2
  have hstyle := (Html.notMem_escape result.style).2
  rw [Html.shownText, toList_toHtml, Html.withoutTags_tag (notMem_wrapper hclass hstyle),
    Html.withoutTags_tag (by decide), Node.withoutTags_htmlOf _ h.tree,
    Html.withoutTags_tag (by decide), Html.withoutTags_tag (by decide), Html.withoutTags,
    List.append_nil, Html.decode_escape, String.ofList_toList]
  rfl

end HighlightResult

namespace Render

theorem isNamed_tokenNode (themes : List NamedTheme) (token : Token) :
    (tokenNode themes token).IsNamed := by
  unfold tokenNode
  split
  · trivial
  · rw [Node.IsNamed, entries_tokenProperties]
    refine ⟨by decide, ?_, trivial, trivial⟩
    intro entry hm
    obtain rfl := List.mem_singleton.mp hm
    exact (by decide : Html.IsName "style")

theorem isNamed_lineNode (themes : List NamedTheme) (options : HighlightOptions)
    (line : List Token × Nat) : (lineNode themes options line).IsNamed := by
  rw [lineNode, Node.IsNamed, entries_lineProperties]
  refine ⟨by decide, ?_, Node.areNamed_iff.mpr ?_⟩
  · intro entry hm
    rcases List.mem_pair.mp hm with rfl | rfl
    · exact (by decide : Html.IsName "class")
    · exact (by decide : Html.IsName "line")
  · intro node hm
    obtain ⟨token, -, rfl⟩ := List.mem_map.mp hm
    exact isNamed_tokenNode themes token

-- No name of a rendered block comes from its code, its themes or the request.
theorem isNamed_result (themes : List NamedTheme) (options : HighlightOptions)
    (tokens : List Token) : (result themes options tokens).IsNamed := by
  constructor
  rw [result, tree_eq_intersperse, Node.areNamed_iff]
  refine forall_mem_intersperse trivial fun node hm => ?_
  obtain ⟨line, -, rfl⟩ := List.mem_map.mp hm
  exact isNamed_lineNode themes options line

end Render

namespace LocalHighlighter

variable {σ : Type} {h : LocalHighlighter} {parser : SyntaxParser σ} {library : ThemeLibrary}
  {request : HighlightRequest} {s : σ} {result : HighlightResult}

theorem isNamed_of_highlight (hok : (h.highlight parser library request s).1 = .ok result) :
    result.IsNamed := by
  obtain ⟨tokenizer, language, themeId, start, themes, hnew, rfl⟩ := exists_of_highlight hok
  exact Render.isNamed_result themes request.options _

theorem isNamed_resolve (h : LocalHighlighter) (parser : SyntaxParser σ) (library : ThemeLibrary)
    (request : HighlightRequest) (s : σ) : (h.resolve parser library request s).1.IsNamed :=
  holds_of_resolve (HighlightResult.isNamed_plain request.code) fun _ hok => isNamed_of_highlight hok

end LocalHighlighter

namespace HighlightResult

-- The markup of a result shows its text, whatever stands in its texts, its class and style and
-- the values of its properties. Whatever a local highlighter answers is such a result, so that the
-- markup of a block shows its code.
theorem html_shows_text {σ : Type} (parser : SyntaxParser σ) (library : ThemeLibrary)
    (h : LocalHighlighter) (request : HighlightRequest) (s : σ) :
    (∀ result : HighlightResult, result.IsNamed →
      Html.shownText result.toHtml = result.textContent) ∧
    (∀ code, (plain code).IsNamed ∧ Html.shownText (plain code).toHtml = code) ∧
    (∀ result, (h.highlight parser library request s).1 = .ok result →
      result.IsNamed ∧ Html.shownText result.toHtml = request.code) ∧
    (h.resolve parser library request s).1.IsNamed ∧
      Html.shownText (h.resolve parser library request s).1.toHtml = request.code := by
  refine ⟨fun result hn => shownText_toHtml hn, fun code => ?_, fun result hok => ?_, ?_⟩
  · have hn := isNamed_plain code
    exact ⟨hn, (shownText_toHtml hn).trans (textContent_plain code)⟩
  · have hn := LocalHighlighter.isNamed_of_highlight hok
    exact ⟨hn, (shownText_toHtml hn).trans (LocalHighlighter.textContent_of_highlight hok)⟩
  · have hn := h.isNamed_resolve parser library request s
    have htext := h.textContent_resolve parser library request s
    generalize (h.resolve parser library request s).1 = result at hn htext
    exact ⟨hn, (shownText_toHtml hn).trans htext⟩

-- Texts and values that look like tags and names of characters.
theorem html_shows_text_rust :
    let nested : HighlightResult :=
      ⟨[.element "p" (Dict.ofList [("style", .string "\"></p>&amp;")])
        [.text "&lt;", .element "b" Dict.empty [.text "<b>\"&"]]], "a\">b", "<!--"⟩
    let request : HighlightRequest := ⟨"a<b&&\"&amp;>\"\n", "rust", .unspecified, .none⟩
    nested.IsNamed ∧ Html.shownText nested.toHtml = "&lt;<b>\"&" ∧
      ∃ result, (LocalHighlighter.fresh.highlight .absent .bare request ()).1 = .ok result ∧
        Html.shownText result.toHtml = request.code := by
  intro nested request
  have hnamed : nested.IsNamed := by
    refine ⟨?_, trivial⟩
    rw [Node.IsNamed, Render.entries_tokenProperties]
    refine ⟨by decide, ?_, trivial, ⟨by decide, nofun, trivial, trivial⟩, trivial⟩
    intro entry hm
    obtain rfl := List.mem_singleton.mp hm
    exact (by decide : Html.IsName "style")
  have hok : (LocalHighlighter.fresh.highlight .absent .bare request ()).1.isOk = true := by
    decide +kernel
  obtain ⟨result, hresult⟩ := exists_of_isOk hok
  obtain ⟨hshown, -, hblock, -⟩ := html_shows_text .absent .bare .fresh request ()
  exact ⟨hnamed, hshown nested hnamed, result, hresult, (hblock result hresult).2⟩

end HighlightResult

end SyntaxStream
