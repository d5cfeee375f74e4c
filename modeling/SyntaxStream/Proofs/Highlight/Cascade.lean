import SyntaxStream.Proofs.Highlight.Variants

namespace SyntaxStream

-- Of several entries with one key the last one is found if the list is gone through backwards.
theorem lookup_reverse_of_last {α : Type} {entries : List (String × α)} {i : Nat} {key : String}
    {value : α} (hi : entries[i]? = some (key, value))
    (hlast : key ∉ (entries.map (·.1)).drop (i + 1)) : entries.reverse.lookup key = some value := by
  induction entries generalizing i with
  | nil => cases hi
  | cons entry rest ih =>
    rw [List.reverse_cons, List.lookup_append]
    cases i with
    | zero =>
      obtain rfl := Option.some.inj hi
      have hnone : rest.reverse.lookup key = none := by
        rw [List.lookup_eq_none_iff]
        intro other hm
        rw [bne_iff_ne]
        rintro rfl
        exact hlast (List.mem_map_of_mem (List.mem_reverse.mp hm))
      rw [hnone, List.lookup_cons_self, Option.none_or]
    | succ i => rw [ih hi hlast, Option.some_or]

theorem Text.lt_append_of_ne (s : String) {t : String} (ht : t ≠ "") : s < s ++ t := by
  show s.toList < (s ++ t).toList
  have hlt : ([] : List Char) < t.toList := by
    cases htext : t.toList with
    | nil => exact absurd (String.toList_eq_nil_iff.mp htext) ht
    | cons c rest => exact List.nil_lt_cons c rest
  rw [String.toList_append]
  simpa using List.Lex.append_left (· < ·) hlt s.toList

namespace Style

-- The value that a style gives to a property by its name. Of several declarations of one name the
-- last one counts.
def valueOf? (name style : String) : Option String :=
  ((declarations style).reverse.lookup name).join

-- A property has the value at the last place where it is declared, if all names are read as they
-- are written.
theorem Declares.valueOf?_eq {names : List String} {style name : String} {i : Nat}
    (h : Declares names style) (hn : ∀ name ∈ names, IsName name) (hi : names[i]? = some name)
    (hlast : name ∉ names.drop (i + 1)) : valueOf? name style = valueAt? names i style := by
  obtain ⟨entries, rfl, rfl⟩ := h
  rw [List.getElem?_map] at hi
  obtain ⟨⟨name, color⟩, hentry, rfl⟩ := Option.map_eq_some_iff.mp hi
  have hne : entries ≠ [] := List.ne_nil_of_mem (List.mem_of_getElem? hentry)
  have hlookup : (entries.map fun entry => (entry.1, some entry.2.toHex)).reverse.lookup name =
      some (some color.toHex) := by
    apply lookup_reverse_of_last (i := i)
    · rw [List.getElem?_map, hentry, Option.map_some]
    · rw [List.map_map]
      exact hlast
  rw [valueOf?, (declarations_ofColors_iff hne).mpr hn, hlookup, valueAt?_ofColors,
    List.getElem?_map, hentry]
  rfl

end Style

theorem drop_eq_cons_of_getElem? {α : Type} {xs : List α} {x : α} {k : Nat}
    (hk : xs[k]? = some x) : xs.drop k = x :: xs.drop (k + 1) := by
  obtain ⟨hlt, rfl⟩ := List.getElem?_eq_some_iff.mp hk
  exact List.drop_eq_getElem_cons hlt

theorem notMem_drop_of_nodup {names : List String} {name : String} {i : Nat} (h : names.Nodup)
    (hi : names[i]? = some name) : name ∉ names.drop (i + 1) := by
  have hrest := h.sublist (List.drop_sublist i names)
  rw [drop_eq_cons_of_getElem? hi] at hrest
  exact (List.nodup_cons.mp hrest).1

theorem drop_flatMap_pair {α β : Type} (f g : α → β) (xs : List α) (k : Nat) :
    (xs.flatMap fun x => [f x, g x]).drop (2 * k) = (xs.drop k).flatMap fun x => [f x, g x] := by
  induction xs generalizing k with
  | nil => simp
  | cons x rest ih =>
    cases k with
    | zero => rfl
    | succ k => simpa [Nat.mul_add] using ih k

theorem forall₂_with_mem {α β : Type} {R : α → β → Prop} {P : α → Prop} {Q : β → Prop}
    {xs : List α} {ys : List β} (h : List.Forall₂ R xs ys) (hp : ∀ x ∈ xs, P x)
    (hq : ∀ y ∈ ys, Q y) : List.Forall₂ (fun x y => P x ∧ Q y ∧ R x y) xs ys := by
  induction h with
  | nil => exact .nil
  | cons hr _ ih =>
    rw [List.forall_mem_cons] at hp hq
    exact .cons ⟨hp.1, hq.1, hr⟩ (ih hp.2 hq.2)

-- Behind the primary one the variants stand in the order of their names.
theorem ThemeSelection.pairwise_tail (selection : ThemeSelection) :
    (selection.pairs.map (·.1)).tail.Pairwise (· < ·) := by
  cases selection with
  | single id => exact List.Pairwise.nil
  | variants themes =>
    have hsorted : (themes.entries.map (·.1)).Pairwise (· < ·) :=
      List.pairwise_map.mpr themes.sorted
    rw [pairs]
    cases themes.get? primaryName with
    | some id => exact List.pairwise_map.mpr (themes.sorted.filter _)
    | none =>
      by_cases hempty : themes.isEmpty = true
      · simp only [hempty, if_true]
        exact List.Pairwise.nil
      · simp only [hempty]
        exact hsorted.tail

namespace Render

variable {variant : String} {variants others : List String} {j : Nat}

-- The variables of some variants in the style of a block.
theorem mem_variables_iff {name : String} :
    (name ∈ others.flatMap fun variant => ["--mdc-" ++ variant ++ "-bg", "--mdc-" ++ variant]) ↔
      ∃ variant ∈ others, name = "--mdc-" ++ (variant ++ "-bg") ∨ name = "--mdc-" ++ variant := by
  simp [String.append_assoc]

theorem nodup_tokenNames (hs : variants.tail.Pairwise (· < ·)) : (tokenNames variants).Nodup := by
  cases variants with
  | nil => exact List.nodup_nil
  | cons primary others =>
    rw [tokenNames, List.nodup_cons]
    constructor
    · simp [← String.toList_inj]
    · have hne : others.Nodup := hs.imp String.ne_of_lt
      exact hne.map fun a b => (String.append_right_inj "--mdc-").mp

theorem lt_of_mem_drop {k : Nat} (hs : others.Pairwise (· < ·)) (hk : others[k]? = some variant)
    {other : String} (hm : other ∈ others.drop (k + 1)) : variant < other := by
  have hrest := hs.sublist (List.drop_sublist k others)
  rw [drop_eq_cons_of_getElem? hk] at hrest
  exact (List.pairwise_cons.mp hrest).1 other hm

-- The color of a variant is not declared again. It has the name of a background if the name of the
-- variant is that of another one with an ending, but that one stands before it.
theorem notMem_after_color (hs : variants.tail.Pairwise (· < ·))
    (hj : variants[j]? = some variant) :
    (if j = 0 then "color" else "--mdc-" ++ variant) ∉
      (wrapperNames variants).drop (2 * j + 1 + 1) := by
  cases variants with
  | nil => cases hj
  | cons primary others =>
    intro hm
    cases j with
    | zero =>
      obtain ⟨other, -, h | h⟩ := mem_variables_iff.mp hm
      · simp [← String.toList_inj] at h
      · simp [← String.toList_inj] at h
    | succ k =>
      have hlater : "--mdc-" ++ variant ∈ (others.drop (k + 1)).flatMap fun variant =>
          ["--mdc-" ++ variant ++ "-bg", "--mdc-" ++ variant] := by
        rw [← drop_flatMap_pair]
        exact hm
      obtain ⟨other, ho, h | h⟩ := mem_variables_iff.mp hlater
      · have hlt := lt_of_mem_drop hs hj ho
        rw [(String.append_right_inj _).mp h] at hlt
        exact String.lt_asymm hlt (Text.lt_append_of_ne other (by decide))
      · have hlt := lt_of_mem_drop hs hj ho
        rw [(String.append_right_inj _).mp h] at hlt
        exact String.lt_irrefl other hlt

-- Nor is the background, unless there is a variant with the name of the background.
theorem notMem_after_background (hs : variants.tail.Pairwise (· < ·))
    (hj : variants[j]? = some variant) (hfree : j = 0 ∨ variant ++ "-bg" ∉ variants.tail) :
    (if j = 0 then "background-color" else "--mdc-" ++ variant ++ "-bg") ∉
      (wrapperNames variants).drop (2 * j + 1) := by
  cases variants with
  | nil => cases hj
  | cons primary others =>
    intro hm
    cases j with
    | zero =>
      have hne : "background-color" ≠ "color" := by decide
      rcases List.mem_cons.mp hm with h | hrest
      · exact hne h
      · obtain ⟨other, -, h | h⟩ := mem_variables_iff.mp hrest
        · simp [← String.toList_inj] at h
        · simp [← String.toList_inj] at h
    | succ k =>
      have hsorted : others.Pairwise (· < ·) := hs
      have hk : others[k]? = some variant := hj
      have hnone : variant ++ "-bg" ∉ others := hfree.resolve_left (Nat.succ_ne_zero k)
      have hrest : (wrapperNames (primary :: others)).drop (2 * (k + 1) + 1) =
          ("--mdc-" ++ variant) :: (others.drop (k + 1)).flatMap fun variant =>
            ["--mdc-" ++ variant ++ "-bg", "--mdc-" ++ variant] := by
        have hpair := drop_flatMap_pair (fun variant => "--mdc-" ++ variant ++ "-bg")
          (fun variant => "--mdc-" ++ variant) others k
        rw [drop_eq_cons_of_getElem? hk] at hpair
        have htail := congrArg (List.drop 1) hpair
        rw [List.drop_drop] at htail
        exact htail
      rw [if_neg (Nat.succ_ne_zero k), hrest, String.append_assoc] at hm
      rcases List.mem_cons.mp hm with h | hlater
      · have hlt := Text.lt_append_of_ne variant (t := "-bg") (by decide)
        rw [(String.append_right_inj _).mp h] at hlt
        exact String.lt_irrefl variant hlt
      · obtain ⟨other, ho, h | h⟩ := mem_variables_iff.mp hlater
        · have hlt := lt_of_mem_drop hsorted hk ho
          rw [(String.append_left_inj _).mp ((String.append_right_inj _).mp h)] at hlt
          exact String.lt_irrefl other hlt
        · rw [(String.append_right_inj _).mp h] at hnone
          exact hnone (List.mem_of_mem_drop ho)

end Render

namespace LocalHighlighter

variable {σ : Type} {h h' : LocalHighlighter} {result : HighlightResult}

-- Every variant of a block is colored as a block with its theme alone: both have one shape and one
-- text, and the styles of the first give to the properties of the variant the colors of the second.
-- Names are written into styles as they are given, so that this needs names without a semicolon or
-- a colon; and where one variant has the name of the background of another, the name is given the
-- color of the former, and the background of the latter is lost.
theorem variants_colored_alone (parser : SyntaxParser σ) (library : ThemeLibrary)
    (request : HighlightRequest) (s : σ) (hf : h.Faithful library) (hf' : h'.Faithful library)
    (hok : (h.highlight parser library request s).1 = .ok result) :
    let others := (request.theme.pairs.map (·.1)).tail
    ∀ (j : Nat) (variant id : String), request.theme.pairs[j]? = some (variant, id) →
      let color := if j = 0 then "color" else "--mdc-" ++ variant
      let background := if j = 0 then "background-color" else "--mdc-" ++ variant ++ "-bg"
      ∃ alone, (h'.highlight parser library { request with theme := .single id } s).1 = .ok alone ∧
        Node.unstyledAll result.tree = Node.unstyledAll alone.tree ∧
        ((∀ other ∈ others, Style.IsName other) →
          List.Forall₂ (fun style own => ∃ c : Color,
              Style.valueOf? color style = some c.toHex ∧
              Style.valueOf? "color" own = some c.toHex)
            (Node.stylesOf result.tree) (Node.stylesOf alone.tree) ∧
          (∃ c : Color, Style.valueOf? color result.style = some c.toHex ∧
            Style.valueOf? "color" alone.style = some c.toHex) ∧
          (j = 0 ∨ variant ++ "-bg" ∉ others →
            ∃ c : Color, Style.valueOf? background result.style = some c.toHex ∧
              Style.valueOf? "background-color" alone.style = some c.toHex)) := by
  intro others j variant id hj color background
  obtain ⟨hcolor, hbackground, hforeground, alone, halone, htree, hstyles, b, c, hb, hc, hb',
    hc'⟩ := variants_colored_in_order parser library request s hf hf' hok j variant id hj
  refine ⟨alone, halone, htree, fun hnames => ?_⟩
  have hsorted := request.theme.pairwise_tail
  have hvariant : (request.theme.pairs.map (·.1))[j]? = some variant := by
    rw [List.getElem?_map, hj, Option.map_some]
  obtain ⟨hdeclared, hwrapper⟩ := declares_of_highlight hf hok
  obtain ⟨hown, hownWrapper⟩ :
      (∀ style ∈ Node.stylesOf alone.tree, Style.Declares ["color"] style) ∧
        Style.Declares ["background-color", "color"] alone.style :=
    declares_of_highlight hf' halone
  have htokenNames := (Render.isName_tokenNames _).mpr hnames
  have hwrapperNames := (Render.isName_wrapperNames _).mpr hnames
  have hownNames : ∀ name ∈ ["color"], Style.IsName name := by decide
  have hownWrapperNames : ∀ name ∈ ["background-color", "color"], Style.IsName name := by decide
  refine ⟨?_, ⟨c, ?_, ?_⟩, fun hfree => ⟨b, ?_, ?_⟩⟩
  · refine (forall₂_with_mem hstyles hdeclared hown).imp ?_
    rintro style own ⟨hstyle, howned, color', hvalue, hvalue'⟩
    refine ⟨color', ?_, ?_⟩
    · rw [hstyle.valueOf?_eq htokenNames hcolor
        (notMem_drop_of_nodup (Render.nodup_tokenNames hsorted) hcolor), hvalue]
    · rw [howned.valueOf?_eq hownNames (i := 0) rfl List.not_mem_nil, hvalue']
  · rw [hwrapper.valueOf?_eq hwrapperNames hforeground
      (Render.notMem_after_color hsorted hvariant), hc]
  · rw [hownWrapper.valueOf?_eq hownWrapperNames (i := 1) rfl List.not_mem_nil, hc']
  · rw [hwrapper.valueOf?_eq hwrapperNames hbackground
      (Render.notMem_after_background hsorted hvariant hfree), hb]
  · rw [hownWrapper.valueOf?_eq hownWrapperNames (i := 0) rfl (by decide), hb']

-- A keyword under a dark theme, with a light theme as the other variant.
theorem variants_colored_alone_rust :
    let request : HighlightRequest := ⟨"a", "rust",
      .variants (Dict.ofList [("default", "github-dark"), ("light", "github-light")]), .none⟩
    let parser := SyntaxParser.ofCaptures [⟨0, 1, 0, "keyword"⟩]
    fresh.Faithful .bare ∧
    ∃ result alone, (fresh.highlight parser .bare request ()).1 = .ok result ∧
      (fresh.highlight parser .bare { request with theme := .single "github-light" } ()).1 =
        .ok alone ∧
      List.Forall₂ (fun style own => ∃ c : Color,
          Style.valueOf? "--mdc-light" style = some c.toHex ∧
          Style.valueOf? "color" own = some c.toHex)
        (Node.stylesOf result.tree) (Node.stylesOf alone.tree) ∧
      ∃ c : Color, Style.valueOf? "--mdc-light-bg" result.style = some c.toHex ∧
        Style.valueOf? "background-color" alone.style = some c.toHex := by
  intro request parser
  have hok : (fresh.highlight parser .bare request ()).1.isOk = true := by decide +kernel
  obtain ⟨result, hresult⟩ := exists_of_isOk hok
  have hf := faithful_fresh .bare
  have hpair : request.theme.pairs[1]? = some ("light", "github-light") := by decide +kernel
  have hothers : (request.theme.pairs.map (·.1)).tail = ["light"] := by decide +kernel
  obtain ⟨alone, halone, -, hcolors⟩ :=
    variants_colored_alone parser .bare request () hf hf hresult 1 "light" "github-light" hpair
  rw [hothers] at hcolors
  obtain ⟨hstyles, -, hbackground⟩ := hcolors (by decide)
  exact ⟨hf, result, alone, hresult, halone, hstyles, hbackground (Or.inr (by decide))⟩

-- The name of a variant that is the background of another one.
theorem background_overwritten :
    let request : HighlightRequest := ⟨"a", "rust", .variants (Dict.ofList
      [("default", "github-dark"), ("a", "github-light"), ("a-bg", "default-dark")]), .none⟩
    let parser := SyntaxParser.ofCaptures [⟨0, 1, 0, "keyword"⟩]
    request.theme.pairs[1]? = some ("a", "github-light") ∧
    ∃ result alone, (fresh.highlight parser .bare request ()).1 = .ok result ∧
      (fresh.highlight parser .bare { request with theme := .single "github-light" } ()).1 =
        .ok alone ∧
      Style.valueOf? "--mdc-a-bg" result.style = some "#d4d4d4" ∧
      Style.valueOf? "background-color" alone.style = some "#ffffff" := by
  intro request parser
  have hpair : request.theme.pairs[1]? = some ("a", "github-light") := by decide +kernel
  have hstyle : (fresh.highlight parser .bare request ()).1.toOption.bind
      (fun result => Style.valueOf? "--mdc-a-bg" result.style) = some "#d4d4d4" := by
    decide +kernel
  have hown : (fresh.highlight parser .bare { request with theme := .single "github-light" }
      ()).1.toOption.bind (fun alone => Style.valueOf? "background-color" alone.style) =
        some "#ffffff" := by
    decide +kernel
  refine ⟨hpair, ?_⟩
  generalize (fresh.highlight parser .bare request ()).1 = outcome at hstyle ⊢
  generalize (fresh.highlight parser .bare { request with theme := .single "github-light" }
    ()).1 = outcome' at hown ⊢
  cases outcome with
  | error reason => cases hstyle
  | ok result =>
    cases outcome' with
    | error reason => cases hown
    | ok alone => exact ⟨result, alone, rfl, rfl, hstyle, hown⟩

end LocalHighlighter

end SyntaxStream
