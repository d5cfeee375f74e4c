import SyntaxStream.Proofs.Highlight.Styles

namespace SyntaxStream

namespace Node

mutual

-- A tree with its styles left empty: what remains are its shape and its text.
def unstyled : Node → Node
  | text value => text value
  | element tag properties children =>
    element tag
      (if (properties.get? "style").isSome then properties.insert "style" (.string "")
        else properties)
      (unstyledAll children)

def unstyledAll : List Node → List Node
  | [] => []
  | node :: rest => node.unstyled :: unstyledAll rest

end

theorem unstyledAll_eq_map (nodes : List Node) : unstyledAll nodes = nodes.map unstyled := by
  induction nodes with
  | nil => rfl
  | cons node rest ih => rw [unstyledAll, ih, List.map_cons]

theorem unstyledAll_intersperse (nodes : List Node) (value : String) :
    unstyledAll (nodes.intersperse (.text value)) =
      (unstyledAll nodes).intersperse (.text value) := by
  induction nodes with
  | nil => rfl
  | cons node rest ih =>
    cases rest with
    | nil => rfl
    | cons next rest =>
      rw [List.intersperse_cons_cons, unstyledAll, unstyledAll, ih, unstyled]
      simp only [unstyledAll, List.intersperse_cons_cons]

end Node

namespace Style

-- The value at an index among the properties that are declared, whose names are known. It is told
-- by its place: two variants can give one name, as a-bg and the background of a do.
def valueAt? (names : List String) (index : Nat) (style : String) : Option String :=
  (values? names style.toList).bind (·[index]?)

theorem valueAt?_ofColors (entries : List (String × Color)) (index : Nat) :
    valueAt? (entries.map (·.1)) index (ofColors entries) =
      (entries.map (·.2))[index]?.map Color.toHex := by
  have hwritten := values?_write (notMem_colors entries)
  rw [List.map_map, List.map_map] at hwritten
  have hnames : valueAt? (entries.map (·.1)) index (ofColors entries) =
      (some (entries.map fun entry => entry.2.toHex)).bind (·[index]?) :=
    congrArg (Option.bind · (·[index]?)) hwritten
  rw [hnames, Option.bind_some, List.getElem?_map, List.getElem?_map, Option.map_map]
  rfl

end Style

-- The color of a span under a theme.
def Theme.colorOf (theme : Theme) (highlight : Option Nat) : Color :=
  (highlight.bind theme.colorFor).getD theme.foreground

-- The names of the vocabulary are read back as their numbers.
theorem Scope.number?_of_name? {n : Nat} {name : String} (h : name? n = some name) :
    number? name = some n := by
  have hall : (List.range names.length).all fun n =>
      (name? n).all fun name => number? name == some n := by decide +kernel
  have hn : n < names.length := (List.getElem?_eq_some_iff.mp h).1
  have hname := List.all_eq_true.mp hall n (List.mem_range.mpr hn)
  rw [h] at hname
  exact eq_of_beq hname

-- The two ways to a color: by the number of the highlight, and by the name of its scope.
theorem Theme.colorForScope_scope (theme : Theme) {span : Span} (h : span.scope.isSome) :
    theme.colorForScope span.scope = theme.colorOf span.highlight := by
  obtain ⟨name, hname⟩ := Option.isSome_iff_exists.mp h
  obtain ⟨n, hn, hscope⟩ := Option.bind_eq_some_iff.mp hname
  rw [colorForScope, colorOf, hname, hn, Option.bind_some, Scope.number?_of_name? hscope]

namespace Render

variable {themes : List NamedTheme} {options : HighlightOptions} {tokens : List Token}

def uncolored (token : Token) : Token := { token with color := none }

theorem insert_tokenProperties (style other : Json) :
    (Dict.ofList [("style", style)]).insert "style" other = Dict.ofList [("style", other)] := by
  simp only [Dict.ofList, Dict.insert, Dict.empty, List.foldl_cons, List.foldl_nil, insertSorted,
    String.lt_irrefl, if_false, if_true]

theorem unstyled_tokenNode (themes : List NamedTheme) (token : Token) :
    (tokenNode themes token).unstyled = tokenNode [] (uncolored token) := by
  cases hscope : token.scope with
  | none => simp [tokenNode, uncolored, hscope, Node.unstyled]
  | some name =>
    simp [tokenNode, tokenStyle, uncolored, hscope, Node.unstyled, Node.unstyledAll, Dict.get?,
      entries_tokenProperties, insert_tokenProperties]

theorem unstyled_lineNode (themes : List NamedTheme) (options : HighlightOptions)
    (line : List Token × Nat) :
    (lineNode themes options line).unstyled =
      lineNode [] options (line.1.map uncolored, line.2) := by
  simp [lineNode, Node.unstyled, Dict.get?, entries_lineProperties, List.lookup_cons,
    Node.unstyledAll_eq_map, Function.comp_def, unstyled_tokenNode]

theorem tokenLines_uncolored (tokens : List Token) :
    tokenLines (tokens.map uncolored) = (tokenLines tokens).map (List.map uncolored) := by
  induction tokens with
  | nil => rfl
  | cons token rest ih =>
    obtain ⟨line, lines, hl⟩ := List.exists_cons_of_ne_nil (tokenLines_ne_nil rest)
    have hcontent : (uncolored token).content = token.content := rfl
    rw [List.map_cons, tokenLines, tokenLines, ih, hl, hcontent]
    by_cases hn : token.content = "\n"
    · simp [hn]
    · simp [hn]

-- Themes and colors show in the styles of a tree only.
theorem unstyledAll_tree (themes : List NamedTheme) (options : HighlightOptions)
    (tokens : List Token) :
    Node.unstyledAll (tree themes options tokens) = tree [] options (tokens.map uncolored) := by
  have hlines : Node.unstyledAll (lineNodes themes options tokens) =
      lineNodes [] options (tokens.map uncolored) := by
    rw [Node.unstyledAll_eq_map, lineNodes, lineNodes, tokenLines_uncolored, List.zipIdx_map,
      List.map_map, List.map_map]
    exact List.map_congr_left fun line _ => unstyled_lineNode themes options line
  rw [tree_eq_intersperse, tree_eq_intersperse, Node.unstyledAll_intersperse, hlines]

theorem getElem?_flatMap_pair {α β : Type} (f g : α → β) (xs : List α) (j : Nat) :
    (xs.flatMap fun x => [f x, g x])[2 * j]? = xs[j]?.map f ∧
      (xs.flatMap fun x => [f x, g x])[2 * j + 1]? = xs[j]?.map g := by
  induction xs generalizing j with
  | nil => simp
  | cons x rest ih =>
    cases j with
    | zero => simp
    | succ j => simpa [Nat.mul_add] using ih j

theorem getElem?_tokenNames (variants : List String) (j : Nat) :
    (tokenNames variants)[j]? =
      variants[j]?.map fun variant => if j = 0 then "color" else "--mdc-" ++ variant := by
  cases variants with
  | nil => rfl
  | cons primary others =>
    cases j with
    | zero => rfl
    | succ j => simp [tokenNames]

theorem getElem?_wrapperNames (variants : List String) (j : Nat) :
    (wrapperNames variants)[2 * j]? = variants[j]?.map (fun variant =>
        if j = 0 then "background-color" else "--mdc-" ++ variant ++ "-bg") ∧
      (wrapperNames variants)[2 * j + 1]? =
        variants[j]?.map fun variant => if j = 0 then "color" else "--mdc-" ++ variant := by
  cases variants with
  | nil => simp [wrapperNames]
  | cons primary others =>
    cases j with
    | zero => exact ⟨rfl, rfl⟩
    | succ j =>
      have hpair := getElem?_flatMap_pair (fun variant => "--mdc-" ++ variant ++ "-bg")
        (fun variant => "--mdc-" ++ variant) others j
      simpa [wrapperNames, Nat.mul_add] using hpair

theorem colors_tokenEntries (start : Transform) {span : Span} (h : span.scope.isSome)
    (variant : String) (others : List NamedTheme) :
    (tokenEntries ((variant, start.theme) :: others) (start.tokenOf span)).map (·.2) =
      ((variant, start.theme) :: others).map fun named => named.2.colorOf span.highlight := by
  have hscope : (start.tokenOf span).scope = span.scope := rfl
  simp only [tokenEntries, hscope, Theme.colorForScope_scope _ h, List.map_cons, List.map_map]
  rfl

theorem colors_wrapperEntries (themes : List NamedTheme) :
    (wrapperEntries themes).map (·.2) =
      themes.flatMap fun named => [named.2.background, named.2.foreground] := by
  cases themes with
  | nil => rfl
  | cons primary others => simp [wrapperEntries, List.map_flatMap]

theorem stylesOf_themed (themes : List NamedTheme) (options : HighlightOptions) (t : Transform)
    (spans : List Span) :
    Node.stylesOf (tree themes options (t.themed spans)) =
      (spans.filter fun span => isStyled (t.tokenOf span)).map fun span =>
        tokenStyle themes (t.tokenOf span) := by
  rw [stylesOf_tree, Transform.themed_eq_map, List.filter_map, List.map_map]
  rfl

-- Primary or not, a variant is declared the color of the span under its theme.
theorem valueAt?_tokenStyle (start : Transform) {span : Span} (h : span.scope.isSome)
    (variant : String) (others : List NamedTheme) (j : Nat) :
    Style.valueAt? (tokenNames (((variant, start.theme) :: others).map (·.1))) j
        (tokenStyle ((variant, start.theme) :: others) (start.tokenOf span)) =
      ((variant, start.theme) :: others)[j]?.map fun named =>
        (named.2.colorOf span.highlight).toHex := by
  rw [← names_tokenEntries _ (start.tokenOf span), tokenStyle_eq, Style.valueAt?_ofColors,
    colors_tokenEntries start h, List.getElem?_map, Option.map_map]
  rfl

theorem valueAt?_wrapperStyle (themes : List NamedTheme) (j : Nat) :
    Style.valueAt? (wrapperNames (themes.map (·.1))) (2 * j) (wrapperStyle themes) =
        themes[j]?.map (fun named => named.2.background.toHex) ∧
      Style.valueAt? (wrapperNames (themes.map (·.1))) (2 * j + 1) (wrapperStyle themes) =
        themes[j]?.map fun named => named.2.foreground.toHex := by
  obtain ⟨hbackground, hforeground⟩ := getElem?_flatMap_pair
    (fun named : NamedTheme => named.2.background) (fun named => named.2.foreground) themes j
  rw [← names_wrapperEntries, wrapperStyle_eq, Style.valueAt?_ofColors, Style.valueAt?_ofColors,
    colors_wrapperEntries, hbackground, hforeground, Option.map_map, Option.map_map]
  exact ⟨rfl, rfl⟩

end Render

theorem ThemeLibrary.Supplies.getElem? {library : ThemeLibrary} {pairs : List (String × String)}
    {themes : List Render.NamedTheme} (h : library.Supplies pairs themes) {j : Nat}
    {variant id : String} (hj : pairs[j]? = some (variant, id)) :
    ∃ theme, themes[j]? = some (variant, theme) ∧ library.load id = .ok theme := by
  induction h generalizing j with
  | nil => cases hj
  | @cons entry named _ _ hentry _ ih =>
    cases j with
    | zero =>
      obtain rfl := Option.some.inj hj
      exact ⟨named.2, congrArg some (Prod.ext hentry.1 rfl), hentry.2⟩
    | succ j => exact ih hj

theorem ThemeLibrary.Supplies.exists_cons {library : ThemeLibrary} {themes : List Render.NamedTheme}
    {pairs others : List (String × String)} {primary : String × String} {theme : Theme}
    (h : library.Supplies pairs themes) (hpairs : pairs = primary :: others)
    (hload : library.load primary.2 = .ok theme) : ∃ rest, themes = (primary.1, theme) :: rest := by
  subst hpairs
  obtain ⟨named, rest, ⟨hname, hfound⟩, -, rfl⟩ := List.forall₂_cons_left_iff.mp h
  rw [hload] at hfound
  exact ⟨rest, congrArg (· :: rest) (Prod.ext hname (Except.ok.inj hfound).symm)⟩

theorem Tokenizer.segment_congr {σ : Type} {t t' : Tokenizer} {language : Language}
    (h : t.supports language = t'.supports language) (parser : SyntaxParser σ) (source : String)
    (hasTree : Bool) (window : Window) (s : σ) :
    t.segment parser language source hasTree window s =
      t'.segment parser language source hasTree window s := by
  simp only [segment, h]

namespace LocalHighlighter

variable {σ : Type}

-- The spans of a block do not depend on its themes.
theorem exists_block_spans (parser : SyntaxParser σ) (language : Language) (code : String)
    (s : σ) :
    ∃ spans, ∀ tokenizer themeId start,
      Transform.new tokenizer language themeId false = .ok start →
        (blockTokens parser start code s).1 = { start with source := code }.themed spans := by
  by_cases hc : code = ""
  · subst hc
    exact ⟨[], fun tokenizer themeId start hnew => blockTokens_empty hnew parser s⟩
  · have hbare : (Tokenizer.bare language).supports language = true := by
      simp [Tokenizer.bare, Tokenizer.supports]
    let parsed := Tokenizer.parseOnce parser language code s
    let lines := (Tokenizer.bare language).segment parser language code parsed.1
      ⟨0, Transform.lineEnd code⟩ parsed.2
    let rest := (Tokenizer.bare language).segment parser language code parsed.1
      ⟨Transform.lineEnd code, code.utf8ByteSize⟩ lines.2
    refine ⟨lines.1 ++ rest.1, fun tokenizer themeId start hnew => ?_⟩
    have hs : tokenizer.supports language = (Tokenizer.bare language).supports language := by
      obtain ⟨theme, hs, -⟩ := Transform.exists_of_new hnew
      rw [hs, hbare]
    rw [blockTokens_eq hnew parser s hc]
    simp only [Tokenizer.segment_congr hs]
    rfl

-- A block with one theme.
theorem highlight_single {library : ThemeLibrary} {h : LocalHighlighter} {language : Language}
    {id : String} {theme : Theme} (request : HighlightRequest) (hf : h.Faithful library)
    (hlang : Language.ofName? request.lang = some language)
    (hsingle : request.theme = .single id) (hload : library.load id = .ok theme)
    (parser : SyntaxParser σ) (s : σ) :
    ∃ tokenizer start, Transform.new tokenizer language id false = .ok start ∧
      start.theme = theme ∧
      (h.highlight parser library request s).1 =
        .ok (Render.result [(ThemeSelection.primaryName, theme)] request.options
          (blockTokens parser start request.code s).1) := by
  have hpairs : request.theme.pairs = [(ThemeSelection.primaryName, id)] := by
    rw [hsingle, ThemeSelection.pairs]
  have hl : ∀ other ∈ request.theme.themeIds, library.Loads other := by
    intro other hm
    rw [ThemeSelection.themeIds, List.mem_eraseDups, hpairs] at hm
    obtain rfl : other = id := List.mem_singleton.mp hm
    exact ⟨theme, hload⟩
  obtain ⟨tokenizer, hb⟩ := Tokenizer.exists_build language request.theme.themeIds_ne_nil hl
  obtain ⟨primary, others, themes, start, hcons, hthemes, hnew, hstart, hanswer, -⟩ :=
    highlightWith_of_build hb parser s
  obtain ⟨rfl, rfl⟩ := List.cons.inj (hpairs.symm.trans hcons)
  rw [hload] at hstart
  obtain rfl := Except.ok.inj hstart
  rw [hpairs] at hthemes
  obtain ⟨rest, rfl⟩ := hthemes.exists_cons rfl hload
  obtain rfl := List.forall₂_nil_left_iff.mp (List.forall₂_cons.mp hthemes).2
  refine ⟨tokenizer, start, hnew, rfl, ?_⟩
  rw [(highlight_of_faithful hf parser request s).1, highlightAnew_of_build hlang hb, hanswer]

-- A block with several variants and the block with one of their themes alone have one shape and one
-- text, and at the places where the styles of the first declare the variant they have the colors
-- of the second.
theorem variants_colored_in_order {h h' : LocalHighlighter} {result : HighlightResult}
    (parser : SyntaxParser σ) (library : ThemeLibrary) (request : HighlightRequest) (s : σ)
    (hf : h.Faithful library) (hf' : h'.Faithful library)
    (hok : (h.highlight parser library request s).1 = .ok result) :
    let variants := request.theme.pairs.map (·.1)
    let names := Render.tokenNames variants
    let wrapper := Render.wrapperNames variants
    ∀ (j : Nat) (variant id : String), request.theme.pairs[j]? = some (variant, id) →
      names[j]? = some (if j = 0 then "color" else "--mdc-" ++ variant) ∧
      wrapper[2 * j]? =
        some (if j = 0 then "background-color" else "--mdc-" ++ variant ++ "-bg") ∧
      wrapper[2 * j + 1]? = some (if j = 0 then "color" else "--mdc-" ++ variant) ∧
      ∃ alone, (h'.highlight parser library { request with theme := .single id } s).1 = .ok alone ∧
        Node.unstyledAll result.tree = Node.unstyledAll alone.tree ∧
        List.Forall₂ (fun style own => ∃ color : Color,
            Style.valueAt? names j style = some color.toHex ∧
            Style.valueAt? ["color"] 0 own = some color.toHex)
          (Node.stylesOf result.tree) (Node.stylesOf alone.tree) ∧
        ∃ background foreground : Color,
          Style.valueAt? wrapper (2 * j) result.style = some background.toHex ∧
          Style.valueAt? wrapper (2 * j + 1) result.style = some foreground.toHex ∧
          Style.valueAt? ["background-color", "color"] 0 alone.style = some background.toHex ∧
          Style.valueAt? ["background-color", "color"] 1 alone.style = some foreground.toHex := by
  intro variants names wrapper j variant id hj
  obtain ⟨language, tokenizer, primary, others, themes, start, hlang, hpairs, hthemes, hnew, hstart,
    rfl⟩ := exists_rendering hf hok
  obtain ⟨theme, htheme, hload⟩ := hthemes.getElem? hj
  obtain ⟨tokenizer', start', hnew', rfl, halone⟩ := highlight_single
    { request with theme := .single id } hf' hlang rfl hload parser s
  obtain ⟨spans, hspans⟩ := exists_block_spans parser language request.code s
  have hvariant : variants[j]? = some variant := by
    rw [List.getElem?_map, hj, Option.map_some]
  have hnames : themes.map (·.1) = variants := hthemes.names
  obtain ⟨hbackground, hforeground⟩ := Render.valueAt?_wrapperStyle themes j
  obtain ⟨hname, hname'⟩ := Render.getElem?_wrapperNames variants j
  refine ⟨?_, ?_, ?_, _, halone, ?_, ?_, start'.theme.background, start'.theme.foreground,
    ?_, ?_, ?_, ?_⟩
  · rw [Render.getElem?_tokenNames, hvariant, Option.map_some]
  · rw [hname, hvariant, Option.map_some]
  · rw [hname', hvariant, Option.map_some]
  · rw [hspans _ _ _ hnew, hspans _ _ _ hnew']
    simp only [Render.result, Render.unstyledAll_tree, Transform.themed_eq_map, List.map_map]
    rfl
  · rw [hspans _ _ _ hnew, hspans _ _ _ hnew']
    obtain ⟨others', rfl⟩ := hthemes.exists_cons hpairs hstart
    simp only [Render.result, Render.stylesOf_themed]
    rw [List.forall₂_map_left_iff, List.forall₂_map_right_iff]
    refine List.forall₂_same.mpr fun span hm => ?_
    have hscope : span.scope.isSome = true :=
      (Bool.and_eq_true_iff.mp (List.mem_filter.mp hm).2).2
    have hstyle := Render.valueAt?_tokenStyle { start with source := request.code }
      hscope primary.1 others' j
    have hown := Render.valueAt?_tokenStyle { start' with source := request.code }
      hscope ThemeSelection.primaryName [] 0
    rw [hnames, htheme] at hstyle
    exact ⟨start'.theme.colorOf span.highlight, hstyle, hown⟩
  · rw [hnames, htheme] at hbackground
    exact hbackground
  · rw [hnames, htheme] at hforeground
    exact hforeground
  · exact (Render.valueAt?_wrapperStyle [(ThemeSelection.primaryName, start'.theme)] 0).1
  · exact (Render.valueAt?_wrapperStyle [(ThemeSelection.primaryName, start'.theme)] 0).2

end LocalHighlighter

end SyntaxStream
