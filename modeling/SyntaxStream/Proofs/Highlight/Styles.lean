import SyntaxStream.Proofs.Highlight.Lines
import SyntaxStream.Proofs.Highlight.Outcome

namespace SyntaxStream

theorem Text.notMem_of_mem_splitOn {sep : Char} {cs piece : List Char}
    (h : piece ∈ cs.splitOn sep) : sep ∉ piece := by
  induction cs generalizing piece with
  | nil =>
    obtain rfl := List.mem_singleton.mp (List.splitOn_nil sep ▸ h)
    exact List.not_mem_nil
  | cons c cs ih =>
    obtain ⟨first, rest, hpieces⟩ := List.exists_cons_of_ne_nil (List.splitOn_ne_nil sep cs)
    rw [hpieces] at ih
    obtain ⟨hfirst, hrest⟩ := List.forall_mem_cons.mp fun piece hm => ih hm
    rw [List.splitOn_cons_eq_if_modifyHead, hpieces] at h
    split at h
    · rcases List.mem_cons.mp h with rfl | hm
      · exact List.not_mem_nil
      · exact ih hm
    · rename_i hc
      rcases List.mem_cons.mp h with rfl | hm
      · exact List.not_mem_cons_of_ne_of_not_mem (fun he => hc (beq_iff_eq.mpr he.symm))
          hfirst
      · exact hrest piece hm

theorem Color.notMem_toHex (color : Color) : ';' ∉ color.toHex.toList := by
  have hdigit : ∀ n < 16, Nat.digitChar n ≠ ';' := by decide
  have hdigits : ∀ n, ';' ∉ hexDigits n := by
    intro n hm
    have hhigh : n.toNat / 16 < 16 := Nat.div_lt_of_lt_mul n.toNat_lt
    have hlow : n.toNat % 16 < 16 := Nat.mod_lt _ (by decide)
    simp only [hexDigits, List.mem_cons, List.not_mem_nil, or_false] at hm
    rcases hm with hm | hm
    · exact hdigit _ hhigh hm.symm
    · exact hdigit _ hlow hm.symm
  rw [toHex, String.toList_ofList]
  refine List.not_mem_cons_of_ne_of_not_mem (by decide) fun hm => ?_
  obtain ⟨n, -, hn⟩ := List.mem_flatMap.mp hm
  exact hdigits n hn

namespace Style

-- A style with some declarations: properties with their values.
def write (entries : List (String × String)) : String :=
  ";".intercalate (entries.map fun entry => entry.1 ++ ":" ++ entry.2)

-- Reads the values of properties that are known to be declared in this order. A value ends before
-- the next semicolon.
def values? : List String → List Char → Option (List String)
  | [], [] => some []
  | [], _ :: _ => none
  | name :: names, cs =>
    if (name ++ ":").toList.isPrefixOf cs then
      let rest := cs.drop (name ++ ":").length
      let value := rest.takeWhile (· != ';')
      (values? names (rest.drop (value.length + 1))).map (String.ofList value :: ·)
    else none

-- A piece of a style, cut at its first colon.
def declaration (piece : List Char) : String × Option String :=
  (String.ofList (piece.takeWhile (· != ':')),
    match piece.dropWhile (· != ':') with
    | [] => none
    | _ :: value => some (String.ofList value))

-- What a style declares if it is cut at every semicolon.
def declarations (style : String) : List (String × Option String) :=
  (style.toList.splitOn ';').map declaration

-- A name that does not end before it does.
def IsName (name : String) : Prop := ';' ∉ name.toList ∧ ':' ∉ name.toList

instance (name : String) : Decidable (IsName name) := inferInstanceAs (Decidable (_ ∧ _))

variable {entries : List (String × String)} {name value : String}

theorem toList_write_cons (name value : String) (rest : List (String × String)) :
    ∃ tail, (write ((name, value) :: rest)).toList =
        (name ++ ":").toList ++ (value.toList ++ tail) ∧
      tail.drop 1 = (write rest).toList ∧ ∀ c ∈ tail.head?, c = ';' := by
  cases rest with
  | nil => exact ⟨[], by simp [write], by simp [write], by simp⟩
  | cons next rest =>
    refine ⟨';' :: (write (next :: rest)).toList, ?_, rfl, by simp⟩
    simp [write, String.intercalate_cons_cons]

-- Whatever stands in the names, the values are found if the names are known.
theorem values?_write (hv : ∀ entry ∈ entries, ';' ∉ entry.2.toList) :
    values? (entries.map (·.1)) (write entries).toList = some (entries.map (·.2)) := by
  induction entries with
  | nil => rfl
  | cons entry rest ih =>
    obtain ⟨name, value⟩ := entry
    obtain ⟨hvalue, hrest⟩ := List.forall_mem_cons.mp hv
    obtain ⟨tail, htext, htail, hsep⟩ := toList_write_cons name value rest
    have htake : (value.toList ++ tail).takeWhile (· != ';') = value.toList := by
      have hend : tail.takeWhile (· != ';') = [] := by
        cases tail with
        | nil => rfl
        | cons c tail => simp [hsep c rfl]
      rw [List.takeWhile_append_of_pos, hend, List.append_nil]
      intro c hc
      exact bne_iff_ne.mpr fun he => hvalue (he ▸ hc)
    have hprefix : (name ++ ":").toList.isPrefixOf
        ((name ++ ":").toList ++ (value.toList ++ tail)) = true :=
      List.isPrefixOf_iff_prefix.mpr (List.prefix_append _ _)
    rw [htext, List.map_cons, values?, if_pos hprefix]
    simp only [← String.length_toList, List.drop_left, htake]
    rw [← List.drop_drop, List.drop_left, htail, ih hrest]
    simp

theorem declaration_append (hn : ':' ∉ name.toList) (value : String) :
    declaration (name ++ ":" ++ value).toList = (name, some value) := by
  have hpass : ∀ c ∈ name.toList, (c != ':') = true := fun c hc =>
    bne_iff_ne.mpr fun he => hn (he ▸ hc)
  have htext : (name ++ ":" ++ value).toList = name.toList ++ ':' :: value.toList := by simp
  rw [htext, declaration, List.takeWhile_append_of_pos hpass, List.dropWhile_append_of_pos hpass]
  simp

theorem isName_of_mem_declarations {style : String} {entry : String × Option String}
    (h : entry ∈ declarations style) : IsName entry.1 := by
  obtain ⟨piece, hm, rfl⟩ := List.mem_map.mp h
  rw [declaration, IsName, String.toList_ofList]
  constructor
  · exact fun hc => Text.notMem_of_mem_splitOn hm ((List.takeWhile_prefix _).subset hc)
  · exact fun hc => by simpa using List.mem_takeWhile_imp hc

-- Cut at every semicolon a style declares what was written, if and only if no name ends early.
theorem declarations_write_iff (hne : entries ≠ [])
    (hv : ∀ entry ∈ entries, ';' ∉ entry.2.toList) :
    declarations (write entries) = entries.map (fun entry => (entry.1, some entry.2)) ↔
      ∀ entry ∈ entries, IsName entry.1 := by
  constructor
  · intro hd entry hm
    have hdeclared : (entry.1, some entry.2) ∈ declarations (write entries) :=
      hd ▸ List.mem_map_of_mem hm
    exact isName_of_mem_declarations hdeclared
  · intro hn
    have hpieces : (write entries).toList =
        [';'].intercalate (entries.map fun entry => (entry.1 ++ ":" ++ entry.2).toList) := by
      rw [write, String.toList_intercalate, List.map_map]
      rfl
    rw [declarations, hpieces, List.splitOn_intercalate, List.map_map]
    · exact List.map_congr_left fun entry hm => declaration_append (hn entry hm).2 entry.2
    · intro piece hm
      obtain ⟨entry, hentry, rfl⟩ := List.mem_map.mp hm
      have hname := (hn entry hentry).1
      have hvalue := hv entry hentry
      simp [hname, hvalue]
    · simpa using hne

-- Declarations that are written two at a time.
theorem intercalate_pairs (pairs : List (String × String)) :
    ";".intercalate (pairs.map fun pair => pair.1 ++ ";" ++ pair.2) =
      ";".intercalate (pairs.flatMap fun pair => [pair.1, pair.2]) := by
  induction pairs with
  | nil => rfl
  | cons pair rest ih =>
    cases rest with
    | nil => simp [String.intercalate_cons_cons]
    | cons next rest =>
      simp only [List.map_cons, List.flatMap_cons, List.cons_append, List.nil_append,
        String.intercalate_cons_cons] at ih ⊢
      rw [ih]
      simp only [String.append_assoc]

theorem isName_variable (variant : String) : IsName ("--mdc-" ++ variant) ↔ IsName variant := by
  simp [IsName]

-- A style that gives colors to properties.
def ofColors (entries : List (String × Color)) : String :=
  write (entries.map fun entry => (entry.1, entry.2.toHex))

-- Whether a style is made of colors for some properties, in this order.
def Declares (names : List String) (style : String) : Prop :=
  ∃ entries : List (String × Color), entries.map (·.1) = names ∧ style = ofColors entries

theorem notMem_colors (entries : List (String × Color)) :
    ∀ written ∈ entries.map fun entry => (entry.1, entry.2.toHex), ';' ∉ written.2.toList := by
  intro written hm
  obtain ⟨entry, -, rfl⟩ := List.mem_map.mp hm
  exact entry.2.notMem_toHex

theorem declarations_ofColors_iff {entries : List (String × Color)} (hne : entries ≠ []) :
    declarations (ofColors entries) = entries.map (fun entry => (entry.1, some entry.2.toHex)) ↔
      ∀ name ∈ entries.map (·.1), IsName name := by
  have hwritten := declarations_write_iff (by simpa using hne) (notMem_colors entries)
  rw [List.map_map, List.forall_mem_map] at hwritten
  rw [List.forall_mem_map]
  exact hwritten

end Style

namespace Node

mutual

-- The styles of a tree, in the order of its text.
def styles : Node → List String
  | text _ => []
  | element _ properties children =>
    match properties.get? "style" with
    | some (.string style) => style :: stylesOf children
    | _ => stylesOf children

def stylesOf : List Node → List String
  | [] => []
  | node :: rest => node.styles ++ stylesOf rest

end

theorem stylesOf_eq_flatMap (nodes : List Node) : stylesOf nodes = nodes.flatMap styles := by
  induction nodes with
  | nil => rfl
  | cons node rest ih => rw [stylesOf, ih, List.flatMap_cons]

theorem stylesOf_intersperse (nodes : List Node) (value : String) :
    stylesOf (nodes.intersperse (.text value)) = stylesOf nodes := by
  induction nodes with
  | nil => rfl
  | cons node rest ih =>
    cases rest with
    | nil => rfl
    | cons next rest =>
      rw [List.intersperse_cons_cons, stylesOf, stylesOf, ih, styles, List.nil_append, ← stylesOf]

end Node

namespace Render

variable {themes : List NamedTheme} {options : HighlightOptions} {tokens : List Token}

-- What is declared in the style of a token, by the names of the variants: a color for the primary
-- one, and a variable for each of the others.
def tokenNames : List String → List String
  | [] => []
  | _ :: others => "color" :: others.map fun variant => "--mdc-" ++ variant

-- What is declared in the style of a block: a background and a color for each variant.
def wrapperNames : List String → List String
  | [] => []
  | _ :: others => "background-color" :: "color" ::
      others.flatMap fun variant => ["--mdc-" ++ variant ++ "-bg", "--mdc-" ++ variant]

def tokenEntries (themes : List NamedTheme) (token : Token) : List (String × Color) :=
  match themes with
  | [] => []
  | (_, primary) :: others =>
    ("color", token.color.getD primary.foreground) ::
      others.map fun (variant, theme) => ("--mdc-" ++ variant, theme.colorForScope token.scope)

def wrapperEntries (themes : List NamedTheme) : List (String × Color) :=
  match themes with
  | [] => []
  | (_, primary) :: others =>
    ("background-color", primary.background) :: ("color", primary.foreground) ::
      others.flatMap fun (variant, theme) =>
        [("--mdc-" ++ variant ++ "-bg", theme.background), ("--mdc-" ++ variant, theme.foreground)]

theorem names_tokenEntries (themes : List NamedTheme) (token : Token) :
    (tokenEntries themes token).map (·.1) = tokenNames (themes.map (·.1)) := by
  cases themes with
  | nil => rfl
  | cons primary others => simp [tokenEntries, tokenNames]

theorem names_wrapperEntries (themes : List NamedTheme) :
    (wrapperEntries themes).map (·.1) = wrapperNames (themes.map (·.1)) := by
  cases themes with
  | nil => rfl
  | cons primary others =>
    simp [wrapperEntries, wrapperNames, List.map_flatMap, List.flatMap_map]

theorem tokenNames_ne_nil {variants : List String} (h : variants ≠ []) :
    tokenNames variants ≠ [] := by
  cases variants with
  | nil => exact absurd rfl h
  | cons primary others => exact List.cons_ne_nil _ _

theorem wrapperNames_ne_nil {variants : List String} (h : variants ≠ []) :
    wrapperNames variants ≠ [] := by
  cases variants with
  | nil => exact absurd rfl h
  | cons primary others => exact List.cons_ne_nil _ _

theorem tokenStyle_eq (themes : List NamedTheme) (token : Token) :
    tokenStyle themes token = Style.ofColors (tokenEntries themes token) := by
  cases themes with
  | nil => rfl
  | cons primary others =>
    simp only [tokenStyle, tokenEntries, Style.ofColors, Style.write, List.map_cons, List.map_map]
    rfl

theorem wrapperStyle_eq (themes : List NamedTheme) :
    wrapperStyle themes = Style.ofColors (wrapperEntries themes) := by
  cases themes with
  | nil => rfl
  | cons primary others =>
    have hprimary : ∀ a b : String, "background-color:" ++ a ++ ";color:" ++ b =
        "background-color" ++ ":" ++ a ++ ";" ++ ("color" ++ ":" ++ b) := by
      intro a b
      apply String.toList_inj.mp
      simp
    have hother : ∀ variant a b : String, "--mdc-" ++ variant ++ "-bg:" ++ a ++ ";--mdc-" ++
        variant ++ ":" ++ b = "--mdc-" ++ variant ++ "-bg" ++ ":" ++ a ++ ";" ++
          ("--mdc-" ++ variant ++ ":" ++ b) := by
      intro variant a b
      apply String.toList_inj.mp
      simp
    simp only [wrapperStyle, wrapperEntries, hprimary, hother]
    have hpairs := Style.intercalate_pairs
      (("background-color" ++ ":" ++ primary.2.background.toHex,
          "color" ++ ":" ++ primary.2.foreground.toHex) ::
        others.map fun (variant, theme) =>
          ("--mdc-" ++ variant ++ "-bg" ++ ":" ++ theme.background.toHex,
            "--mdc-" ++ variant ++ ":" ++ theme.foreground.toHex))
    simp only [List.map_cons, List.map_map, List.flatMap_cons, List.flatMap_map] at hpairs
    rw [Style.ofColors, Style.write]
    simp only [List.map_cons, List.map_map, List.map_flatMap]
    exact hpairs

theorem declares_tokenStyle (themes : List NamedTheme) (token : Token) :
    Style.Declares (tokenNames (themes.map (·.1))) (tokenStyle themes token) :=
  ⟨tokenEntries themes token, names_tokenEntries themes token, tokenStyle_eq themes token⟩

theorem declares_wrapperStyle (themes : List NamedTheme) :
    Style.Declares (wrapperNames (themes.map (·.1))) (wrapperStyle themes) :=
  ⟨wrapperEntries themes, names_wrapperEntries themes, wrapperStyle_eq themes⟩

theorem isName_tokenNames (variants : List String) :
    (∀ name ∈ tokenNames variants, Style.IsName name) ↔
      ∀ variant ∈ variants.tail, Style.IsName variant := by
  cases variants with
  | nil => simp [tokenNames]
  | cons primary others =>
    have hcolor : Style.IsName "color" := by decide
    simp only [tokenNames, List.forall_mem_cons, hcolor, true_and, List.forall_mem_map,
      Style.isName_variable, List.tail_cons]

theorem isName_wrapperNames (variants : List String) :
    (∀ name ∈ wrapperNames variants, Style.IsName name) ↔
      ∀ variant ∈ variants.tail, Style.IsName variant := by
  cases variants with
  | nil => simp [wrapperNames]
  | cons primary others =>
    have hbackground : Style.IsName "background-color" := by decide
    have hcolor : Style.IsName "color" := by decide
    have hvariant : ∀ variant, Style.IsName ("--mdc-" ++ variant ++ "-bg") ↔
        Style.IsName variant := by simp [Style.IsName]
    simp only [wrapperNames, List.forall_mem_cons, hbackground, hcolor, true_and,
      List.forall_mem_flatMap, hvariant, Style.isName_variable, List.not_mem_nil, false_imp_iff,
      implies_true, and_true, and_self, List.tail_cons]

-- Tokens that are given a style: newlines and plain text have none.
def isStyled (token : Token) : Bool := token.content != "\n" && token.scope.isSome

theorem styles_tokenNode (themes : List NamedTheme) (token : Token) :
    (tokenNode themes token).styles =
      if token.scope.isSome then [tokenStyle themes token] else [] := by
  cases hscope : token.scope with
  | none => simp [tokenNode, hscope, Node.styles]
  | some name =>
    simp [tokenNode, hscope, Node.styles, Node.stylesOf, Dict.get?, entries_tokenProperties]

theorem styles_lineNode (themes : List NamedTheme) (options : HighlightOptions)
    (line : List Token × Nat) :
    (lineNode themes options line).styles =
      line.1.flatMap fun token => (tokenNode themes token).styles := by
  simp [lineNode, Node.styles, Dict.get?, entries_lineProperties, Node.stylesOf_eq_flatMap,
    List.flatMap_map, List.lookup_cons]

theorem flatten_tokenLines (tokens : List Token) :
    (tokenLines tokens).flatten = tokens.filter (·.content != "\n") := by
  induction tokens with
  | nil => rfl
  | cons token rest ih =>
    obtain ⟨line, lines, hl⟩ := List.exists_cons_of_ne_nil (tokenLines_ne_nil rest)
    rw [List.filter_cons, ← ih, hl]
    by_cases hn : token.content = "\n"
    · simp [tokenLines, hn, hl]
    · simp [tokenLines, hn, hl]

theorem stylesOf_tree (themes : List NamedTheme) (options : HighlightOptions)
    (tokens : List Token) :
    Node.stylesOf (tree themes options tokens) =
      (tokens.filter isStyled).map (tokenStyle themes) := by
  calc
    _ = ((tokenLines tokens).zipIdx 1).flatMap fun line =>
        line.1.flatMap fun token => (tokenNode themes token).styles := by
      rw [tree_eq_intersperse, Node.stylesOf_intersperse, Node.stylesOf_eq_flatMap, lineNodes,
        List.flatMap_map]
      simp only [styles_lineNode]
    _ = (tokenLines tokens).flatten.flatMap fun token => (tokenNode themes token).styles := by
      rw [← List.flatMap_id, List.flatMap_assoc, ← List.zipIdx_map_fst 1 (tokenLines tokens),
        List.flatMap_map, List.zipIdx_map_fst]
      rfl
    _ = (tokens.filter isStyled).map (tokenStyle themes) := by
      rw [flatten_tokenLines]
      induction tokens with
      | nil => rfl
      | cons token rest ih =>
        by_cases hn : token.content = "\n"
        · simpa [hn, isStyled] using ih
        · cases hscope : token.scope with
          | none => simpa [hn, isStyled, hscope, styles_tokenNode] using ih
          | some name => simpa [hn, isStyled, hscope, styles_tokenNode] using ih

end Render

namespace LocalHighlighter

variable {σ : Type}

theorem declares_of_highlight {h : LocalHighlighter} {result : HighlightResult}
    {parser : SyntaxParser σ} {library : ThemeLibrary} {request : HighlightRequest} {s : σ}
    (hf : h.Faithful library)
    (hok : (h.highlight parser library request s).1 = .ok result) :
    let variants := request.theme.pairs.map (·.1)
    (∀ style ∈ Node.stylesOf result.tree, Style.Declares (Render.tokenNames variants) style) ∧
      Style.Declares (Render.wrapperNames variants) result.style := by
  intro variants
  obtain ⟨language, tokenizer, primary, others, themes, start, -, -, hthemes, -, -, rfl⟩ :=
    exists_rendering hf hok
  have hnames : themes.map (·.1) = variants := hthemes.names
  rw [← hnames]
  refine ⟨fun style hm => ?_, Render.declares_wrapperStyle themes⟩
  obtain ⟨token, -, rfl⟩ := List.mem_map.mp (Render.stylesOf_tree themes _ _ ▸ hm)
  exact Render.declares_tokenStyle themes token

-- Every style declares a color for each variant, in their order, and so does the style of the
-- block. Cut at every semicolon and colon it declares the same, if and only if no other variant
-- than the primary one has a semicolon or a colon in its name: names are written as they are given.
theorem styles_declare_variants {h : LocalHighlighter} {result : HighlightResult}
    (parser : SyntaxParser σ) (library : ThemeLibrary) (request : HighlightRequest) (s : σ)
    (hf : h.Faithful library) (hok : (h.highlight parser library request s).1 = .ok result) :
    let variants := request.theme.pairs.map (·.1)
    (∀ style ∈ Node.stylesOf result.tree, ∃ entries,
      entries.map (·.1) = Render.tokenNames variants ∧ style = Style.ofColors entries ∧
      (Style.declarations style = entries.map (fun entry => (entry.1, some entry.2.toHex)) ↔
        ∀ variant ∈ variants.tail, Style.IsName variant)) ∧
    ∃ entries, entries.map (·.1) = Render.wrapperNames variants ∧
      result.style = Style.ofColors entries ∧
      (Style.declarations result.style =
          entries.map (fun entry => (entry.1, some entry.2.toHex)) ↔
        ∀ variant ∈ variants.tail, Style.IsName variant) := by
  intro variants
  obtain ⟨htokens, hwrapper⟩ := declares_of_highlight hf hok
  have hne : variants ≠ [] := by simpa [variants] using request.theme.pairs_ne_nil
  refine ⟨fun style hm => ?_, ?_⟩
  · obtain ⟨entries, hnames, rfl⟩ := htokens style hm
    have hentries : entries.map (·.1) ≠ [] := hnames ▸ Render.tokenNames_ne_nil hne
    refine ⟨entries, hnames, rfl, ?_⟩
    rw [Style.declarations_ofColors_iff (by simpa using hentries), hnames,
      Render.isName_tokenNames]
  · obtain ⟨entries, hnames, hstyle⟩ := hwrapper
    have hentries : entries.map (·.1) ≠ [] := hnames ▸ Render.wrapperNames_ne_nil hne
    refine ⟨entries, hnames, hstyle, ?_⟩
    rw [hstyle, Style.declarations_ofColors_iff (by simpa using hentries), hnames,
      Render.isName_wrapperNames]

-- A second variant with a name of its own.
theorem styles_declare_variants_rust :
    let request : HighlightRequest := ⟨"a", "rust",
      .variants (Dict.ofList [("default", "github-dark"), ("dim", "github-dark")]), .none⟩
    let parser := SyntaxParser.ofCaptures [⟨0, 1, 0, "keyword"⟩]
    fresh.Faithful .bare ∧
    ∃ result, (fresh.highlight parser .bare request ()).1 = .ok result ∧
      ∀ style ∈ Node.stylesOf result.tree, ∃ entries : List (String × Color),
        Style.declarations style = entries.map (fun entry => (entry.1, some entry.2.toHex)) ∧
        entries.map (·.1) = ["color", "--mdc-dim"] := by
  intro request parser
  have hok : (fresh.highlight parser .bare request ()).1.isOk = true := by decide +kernel
  obtain ⟨result, hresult⟩ := exists_of_isOk hok
  have hf := faithful_fresh .bare
  obtain ⟨hstyles, -⟩ := styles_declare_variants parser .bare request () hf hresult
  refine ⟨hf, result, hresult, fun style hm => ?_⟩
  obtain ⟨entries, hnames, -, hdeclared⟩ := hstyles style hm
  have hvariants : request.theme.pairs.map (·.1) = ["default", "dim"] := by decide +kernel
  rw [hvariants] at hnames hdeclared
  exact ⟨entries, hdeclared.mpr (by decide), hnames⟩

-- The name of a variant that declares a color for the primary one.
theorem variant_declares_color :
    let request : HighlightRequest := ⟨"a", "rust",
      .variants (Dict.ofList [("default", "github-dark"), ("x;color", "github-light")]), .none⟩
    let parser := SyntaxParser.ofCaptures [⟨0, 1, 0, "keyword"⟩]
    ∃ result style, (fresh.highlight parser .bare request ()).1 = .ok result ∧
      style ∈ Node.stylesOf result.tree ∧
      (Style.declarations style).map (·.1) = ["color", "--mdc-x", "color"] ∧
      Render.tokenNames (request.theme.pairs.map (·.1)) = ["color", "--mdc-x;color"] := by
  intro request parser
  have hstyles : (fresh.highlight parser .bare request ()).1.toOption.map
      (fun result => Node.stylesOf result.tree) =
        some ["color:#f97583;--mdc-x;color:#d73a49"] := by decide +kernel
  generalize (fresh.highlight parser .bare request ()).1 = outcome at hstyles
  cases outcome with
  | error reason => cases hstyles
  | ok result =>
    have hstyle : Node.stylesOf result.tree = ["color:#f97583;--mdc-x;color:#d73a49"] :=
      Option.some.inj hstyles
    exact ⟨result, _, rfl, hstyle ▸ List.mem_singleton_self _, by decide +kernel,
      by decide +kernel⟩

end LocalHighlighter

end SyntaxStream
