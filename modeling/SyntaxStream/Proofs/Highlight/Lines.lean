import SyntaxStream.Proofs.Dict
import SyntaxStream.Proofs.Highlight.Block
import SyntaxStream.Proofs.Highlight.Cache
import SyntaxStream.Proofs.Markdown.Selection
import SyntaxStream.Proofs.Text.Pieces

namespace SyntaxStream

open Text Segment

theorem HighlightResult.textContent_plain (code : String) :
    (HighlightResult.plain code).textContent = code := by
  rw [textContent, plain, Node.contentOf, Node.contentOf, Node.textContent, String.append_empty]

-- What holds of some values and of a separator holds after the separator is put between them.
theorem forall_mem_intersperse {α : Type} {p : α → Prop} {xs : List α} {sep : α} (hs : p sep)
    (h : ∀ x ∈ xs, p x) : ∀ x ∈ xs.intersperse sep, p x := by
  induction xs with
  | nil => exact h
  | cons x rest ih =>
    cases rest with
    | nil => exact h
    | cons next rest =>
      obtain ⟨hx, hrest⟩ := List.forall_mem_cons.mp h
      rw [List.intersperse_cons_cons]
      exact List.forall_mem_cons.mpr ⟨hx, List.forall_mem_cons.mpr ⟨hs, ih hrest⟩⟩

namespace Node

-- The text of nodes with a newline between any two of them.
theorem contentOf_intersperse (nodes : List Node) :
    contentOf (nodes.intersperse (.text "\n")) =
      String.ofList (List.intercalate ['\n'] (nodes.map (·.textContent.toList))) := by
  induction nodes with
  | nil => rfl
  | cons node rest ih =>
    cases rest with
    | nil => simp [contentOf]
    | cons next rest =>
      rw [List.intersperse_cons_cons, contentOf, contentOf, ih, List.map_cons, List.map_cons,
        List.map_cons, List.intercalate_cons_cons, String.ofList_append, String.ofList_append,
        String.ofList_toList, textContent, String.append_assoc]

def property? : Node → String → Option Json
  | text _, _ => none
  | element _ properties _, key => properties.get? key

-- The number of a line, if it is marked.
def markedNumber? (node : Node) : Option Json :=
  match node.property? "class" with
  | some (.string "line highlight") => node.property? "line"
  | _ => none

end Node

namespace Render

variable {themes : List NamedTheme} {options : HighlightOptions} {tokens : List Token}

-- Tokens as they come from a text: newlines stand alone.
def Lined (tokens : List Token) : Prop :=
  ∀ token ∈ tokens, token.content = "\n" ∨ '\n' ∉ token.content.toList

theorem textContent_tokenNode (themes : List NamedTheme) (token : Token) :
    (tokenNode themes token).textContent = token.content := by
  unfold tokenNode
  split <;> simp [Node.textContent, Node.contentOf]

theorem contentOf_tokenNodes (themes : List NamedTheme) (tokens : List Token) :
    Node.contentOf (tokens.map (tokenNode themes)) = String.join (tokens.map (·.content)) := by
  induction tokens with
  | nil => rfl
  | cons token rest ih =>
    rw [List.map_cons, Node.contentOf, textContent_tokenNode, ih, List.map_cons, String.join_cons]

theorem tokenLines_ne_nil (tokens : List Token) : tokenLines tokens ≠ [] := by
  cases tokens with
  | nil => simp [tokenLines]
  | cons token rest =>
    simp only [tokenLines]
    split
    · simp
    · split <;> simp

-- The lines of tokens are the lines of their text.
theorem map_tokenLines (h : Lined tokens) :
    (tokenLines tokens).map (fun line => (String.join (line.map (·.content))).toList) =
      (String.join (tokens.map (·.content))).toList.splitOn '\n' := by
  induction tokens with
  | nil => rfl
  | cons token rest ih =>
    have hrest := ih fun other hm => h other (List.mem_cons_of_mem _ hm)
    obtain ⟨line, lines, hl⟩ := List.exists_cons_of_ne_nil (tokenLines_ne_nil rest)
    rw [List.map_cons, String.join_cons, String.toList_append]
    rcases h token List.mem_cons_self with hn | hn
    · have htext : token.content.toList = ['\n'] := by rw [hn]; rfl
      rw [htext, List.singleton_append, splitOn_cons_self, ← hrest]
      simp [tokenLines, hn]
    · have hne : ¬ token.content = "\n" := by
        intro he
        rw [he] at hn
        exact hn (by decide)
      rw [splitOn_append_of_notMem _ hn, ← hrest, hl]
      simp [tokenLines, hne, hl]

theorem length_tokenLines (h : Lined tokens) :
    (tokenLines tokens).length =
      CodeBlock.lineCount (String.join (tokens.map (·.content))) := by
  rw [CodeBlock.lineCount, splitAll_eq_splitOn, ← map_tokenLines h, List.length_map]

-- The nodes of the lines, without the newlines between them.
def lineNodes (themes : List NamedTheme) (options : HighlightOptions) (tokens : List Token) :
    List Node :=
  ((tokenLines tokens).zipIdx 1).map (lineNode themes options)

theorem tree_eq_intersperse (themes : List NamedTheme) (options : HighlightOptions)
    (tokens : List Token) :
    tree themes options tokens = (lineNodes themes options tokens).intersperse (.text "\n") := rfl

theorem length_lineNodes (themes : List NamedTheme) (options : HighlightOptions)
    (tokens : List Token) :
    (lineNodes themes options tokens).length = (tokenLines tokens).length := by
  rw [lineNodes, List.length_map, List.length_zipIdx]

theorem map_textContent_lineNodes (h : Lined tokens) :
    (lineNodes themes options tokens).map (·.textContent.toList) =
      (String.join (tokens.map (·.content))).toList.splitOn '\n' := by
  have hline : ((·.textContent.toList) ∘ lineNode themes options) =
      (fun line : List Token => (String.join (line.map (·.content))).toList) ∘ Prod.fst := by
    funext line
    simp [lineNode, Node.textContent, contentOf_tokenNodes]
  rw [lineNodes, List.map_map, hline, ← List.map_map, List.zipIdx_map_fst, map_tokenLines h]

-- Nothing of the text is lost, and nothing is moved.
theorem contentOf_tree (h : Lined tokens) :
    Node.contentOf (tree themes options tokens) = String.join (tokens.map (·.content)) := by
  rw [tree_eq_intersperse, Node.contentOf_intersperse, map_textContent_lineNodes h,
    List.intercalate_splitOn, String.ofList_toList]

theorem getElem_lineNodes {i : Nat} (hi : i < (lineNodes themes options tokens).length) :
    ∃ children, (lineNodes themes options tokens)[i] =
      .element "span"
        (Dict.ofList [("class", .string (lineClass options (i + 1))), ("line", .ofNat (i + 1))])
        children := by
  simp only [lineNodes, List.getElem_map, List.getElem_zipIdx, lineNode, Nat.add_comm 1 i]
  exact ⟨_, rfl⟩

theorem entries_lineProperties (mark number : Json) :
    (Dict.ofList [("class", mark), ("line", number)]).entries =
      [("class", mark), ("line", number)] := by
  apply Dict.entries_ofList
  have hlt : "class" < "line" := by decide
  exact List.pairwise_pair.mpr hlt

theorem entries_tokenProperties (style : Json) :
    (Dict.ofList [("style", style)]).entries = [("style", style)] :=
  Dict.entries_ofList (List.pairwise_singleton ..)

theorem markedNumber?_lineNode (line : List Token × Nat) :
    (lineNode themes options line).markedNumber? =
      if options.highlights.contains line.2 then some (.ofNat line.2) else none := by
  have hclass : (lineNode themes options line).property? "class" =
      some (.string (lineClass options line.2)) := by
    simp [lineNode, Node.property?, Dict.get?, entries_lineProperties]
  have hnumber : (lineNode themes options line).property? "line" = some (.ofNat line.2) := by
    simp [lineNode, Node.property?, Dict.get?, entries_lineProperties, List.lookup_cons]
  rw [Node.markedNumber?, hclass, hnumber, lineClass]
  split <;> simp_all

-- The marked lines are those that are asked for, as far as there are such lines.
theorem filterMap_markedNumber? (themes : List NamedTheme) (options : HighlightOptions)
    (tokens : List Token) :
    (lineNodes themes options tokens).filterMap (·.markedNumber?) =
      ((List.range' 1 (tokenLines tokens).length).filter options.highlights.contains).map
        Json.ofNat := by
  have hcompose : (fun line => (lineNode themes options line).markedNumber?) =
      (fun n => if options.highlights.contains n then some (Json.ofNat n) else none) ∘ Prod.snd := by
    funext line
    exact markedNumber?_lineNode line
  rw [lineNodes, List.filterMap_map, Function.comp_def, hcompose, ← List.filterMap_map,
    List.zipIdx_map_snd]
  generalize List.range' 1 (tokenLines tokens).length = numbers
  induction numbers with
  | nil => rfl
  | cons n rest ih =>
    rw [List.filterMap_cons, List.filter_cons, ih]
    cases options.highlights.contains n <;> rfl

end Render

-- Line numbers in ascending order are found again among the numbers of all lines.
theorem filter_range'_contains {numbers : List Nat} {n : Nat} (hs : numbers.Pairwise (· < ·))
    (hb : ∀ number ∈ numbers, 1 ≤ number ∧ number ≤ n) :
    (List.range' 1 n).filter numbers.contains = numbers := by
  apply List.Pairwise.eq_of_mem_iff (r := (· < ·)) _ hs
  · intro number
    rw [List.mem_filter, List.mem_range'_1, List.contains_iff_mem]
    refine ⟨And.right, fun hm => ⟨?_, hm⟩⟩
    have := hb number hm
    omega
  · exact (List.pairwise_lt_range' ..).filter _

namespace LocalHighlighter

variable {σ : Type}

-- The two windows of a block, whatever the parser is like when they are segmented.
theorem exists_segments_of_block {tokenizer : Tokenizer} {language : Language} {themeId : String}
    {start : Transform} {code : String}
    (h : Transform.new tokenizer language themeId false = .ok start) (parser : SyntaxParser σ)
    (s : σ) (hc : code ≠ "") :
    ∃ hasTree s₁ s₂, (blockTokens parser start code s).1 =
      { start with source := code }.themed
        ((tokenizer.segment parser language code hasTree ⟨0, Transform.lineEnd code⟩ s₁).1 ++
          (tokenizer.segment parser language code hasTree
            ⟨Transform.lineEnd code, code.utf8ByteSize⟩ s₂).1) := by
  have hblock := blockTokens_eq h parser s hc
  exact ⟨_, _, _, by rw [hblock]⟩

-- Whatever the parser answers, the spans of a block cover its text, and newlines stand alone.
theorem exists_spans_of_block {tokenizer : Tokenizer} {language : Language} {themeId : String}
    {start : Transform} (h : Transform.new tokenizer language themeId false = .ok start)
    (parser : SyntaxParser σ) (code : String) (s : σ) :
    ∃ spans, (blockTokens parser start code s).1 = { start with source := code }.themed spans ∧
      Tiles (cells code.toList) spans 0 code.utf8ByteSize ∧
      ∀ span ∈ spans, Segment.Lined (cells code.toList) span := by
  by_cases hc : code = ""
  · subst hc
    have htokens : (blockTokens parser start "" s).1 = { start with source := "" }.themed [] :=
      blockTokens_empty h parser s
    exact ⟨[], htokens, String.utf8ByteSize_empty.symm, by simp⟩
  · obtain ⟨hasTree, s₁, s₂, htokens⟩ := exists_segments_of_block h parser s hc
    have hsize := utf8ByteSize_eq code
    have hcut := isBoundary_lineEnd code
    have hle := le_length_of_isBoundary hcut
    have hstop : isBoundary (cells code.toList) code.utf8ByteSize := isBoundary_utf8ByteSize code
    refine ⟨_, htokens, ?_, fun span hm => ?_⟩
    -- a tiling that is unfolded evaluates the windows
    · with_reducible
        exact Tiles.append (Tokenizer.tiles_segment _ _ _ _ _ (Nat.zero_le _) hcut)
          (Tokenizer.tiles_segment _ _ _ _ _ (hsize ▸ hle) hstop)
    · rcases List.mem_append.mp hm with hm | hm
      · exact Tokenizer.lined_segment (Nat.zero_le _) hle span hm
      · exact Tokenizer.lined_segment (hsize ▸ hle) (Nat.le_of_eq hsize) span hm

theorem lined_blockTokens {tokenizer : Tokenizer} {language : Language} {themeId : String}
    {start : Transform} (h : Transform.new tokenizer language themeId false = .ok start)
    (parser : SyntaxParser σ) (code : String) (s : σ) :
    Render.Lined (blockTokens parser start code s).1 ∧
      String.join ((blockTokens parser start code s).1.map (·.content)) = code := by
  obtain ⟨spans, htokens, htiles, hlined⟩ := exists_spans_of_block h parser code s
  rw [htokens]
  constructor
  · intro token hm
    obtain ⟨span, hspan, rfl⟩ := List.mem_map.mp hm
    exact (hlined span hspan).imp_left And.left
  · have hjoin := Transform.join_content_themed (t := { start with source := code }) htiles
    rw [hjoin, slice_zero_utf8ByteSize]

theorem exists_of_highlightWith {parser : SyntaxParser σ} {tokenizer : Tokenizer}
    {language : Language} {request : HighlightRequest} {s : σ} {result : HighlightResult}
    (hok : (highlightWith parser tokenizer language request s).1 = .ok result) :
    ∃ themeId start themes,
      Transform.new tokenizer language themeId false = .ok start ∧
      result = Render.result themes request.options
        (blockTokens parser start request.code s).1 := by
  simp only [highlightWith] at hok
  split at hok
  · cases hok
  · rename_i themes start hp
    simp only [bind, Except.bind, pure, Except.pure] at hp
    split at hp
    · cases hp
    · split at hp
      · cases hp
      · rename_i hnew
        obtain ⟨rfl, rfl⟩ := Prod.mk.inj (Except.ok.inj hp)
        exact ⟨_, _, _, hnew, (Except.ok.inj hok).symm⟩

-- A highlighting that succeeds renders the tokens of the block.
theorem exists_of_highlight {parser : SyntaxParser σ} {library : ThemeLibrary}
    {h : LocalHighlighter} {request : HighlightRequest} {s : σ} {result : HighlightResult}
    (hok : (h.highlight parser library request s).1 = .ok result) :
    ∃ tokenizer language themeId start themes,
      Transform.new tokenizer language themeId false = .ok start ∧
      result = Render.result themes request.options
        (blockTokens parser start request.code s).1 := by
  unfold highlight at hok
  split at hok
  · cases hok
  · split at hok
    · cases hok
    · obtain ⟨themeId, start, themes, hnew, hresult⟩ := exists_of_highlightWith hok
      exact ⟨_, _, themeId, start, themes, hnew, hresult⟩

theorem textContent_of_highlight {parser : SyntaxParser σ} {library : ThemeLibrary}
    {h : LocalHighlighter} {request : HighlightRequest} {s : σ} {result : HighlightResult}
    (hok : (h.highlight parser library request s).1 = .ok result) :
    result.textContent = request.code := by
  obtain ⟨tokenizer, language, themeId, start, themes, hnew, rfl⟩ := exists_of_highlight hok
  obtain ⟨hlined, hjoin⟩ := lined_blockTokens hnew parser request.code s
  exact (Render.contentOf_tree hlined).trans hjoin

-- A block has the text of its code, highlighted or plain.
theorem textContent_resolve (h : LocalHighlighter) (parser : SyntaxParser σ)
    (library : ThemeLibrary) (request : HighlightRequest) (s : σ) :
    (h.resolve parser library request s).1.textContent = request.code :=
  holds_of_resolve (P := fun result => result.textContent = request.code)
    (HighlightResult.textContent_plain request.code) fun _ hok => textContent_of_highlight hok

-- A highlighted block has the text of its code, line by line. Each line has its number, and is
-- marked if that is asked for; so what a fence selects of the lines is what is marked.
theorem highlight_lines {h : LocalHighlighter} {result : HighlightResult}
    (parser : SyntaxParser σ) (library : ThemeLibrary) (request : HighlightRequest) (s : σ)
    (hok : (h.highlight parser library request s).1 = .ok result) :
    result.textContent = request.code ∧
      ∃ lines : List Node,
        result.tree = lines.intersperse (.text "\n") ∧
        lines.length = CodeBlock.lineCount request.code ∧
        lines.map (·.textContent.toList) = request.code.toList.splitOn '\n' ∧
        (∀ (i : Nat) (hi : i < lines.length), ∃ children,
          lines[i] = .element "span"
            (Dict.ofList
              [("class", .string
                  (if i + 1 ∈ request.options.highlights then "line highlight" else "line")),
                ("line", .ofNat (i + 1))])
            children) ∧
        ∀ fenceMeta, request.options.highlights =
            CodeBlock.selectedLines fenceMeta (CodeBlock.lineCount request.code) →
          lines.filterMap (·.markedNumber?) = request.options.highlights.map Json.ofNat := by
  have htext := textContent_of_highlight hok
  obtain ⟨tokenizer, language, themeId, start, themes, hnew, rfl⟩ := exists_of_highlight hok
  obtain ⟨hlined, hjoin⟩ := lined_blockTokens hnew parser request.code s
  generalize (blockTokens parser start request.code s).1 = tokens at htext hlined hjoin
  have hcount : (Render.tokenLines tokens).length = CodeBlock.lineCount request.code := by
    rw [Render.length_tokenLines hlined, hjoin]
  refine ⟨htext, Render.lineNodes themes request.options tokens, rfl, ?_, ?_, fun i hi => ?_, ?_⟩
  · rw [Render.length_lineNodes, hcount]
  · rw [Render.map_textContent_lineNodes hlined, hjoin]
  · obtain ⟨children, hline⟩ := Render.getElem_lineNodes hi
    refine ⟨children, ?_⟩
    rw [hline, Render.lineClass]
    simp only [List.contains_iff_mem]
  · intro fenceMeta hselected
    have hsorted := CodeBlock.pairwise_selectedLines fenceMeta (CodeBlock.lineCount request.code)
    rw [Render.filterMap_markedNumber?, hcount, hselected, filter_range'_contains hsorted]
    exact fun number hm => CodeBlock.bounds_of_mem_selectedLines hm

-- Three lines, the second of them empty and marked.
theorem highlight_lines_rust :
    let parser := SyntaxParser.ofCaptures [⟨0, 4, 0, "comment"⟩]
    let h : LocalHighlighter := ⟨[(⟨.rust, ["bare"]⟩, Tokenizer.bare .rust)]⟩
    let code := "a\n\nb"
    let fenceMeta := "\x7b2\x7d"
    let request : HighlightRequest :=
      ⟨code, "rust", .single "bare", ⟨CodeBlock.selectedLines fenceMeta 3, some fenceMeta⟩⟩
    ∃ result, (h.highlight parser .bare request ()).1 = .ok result ∧
      result.textContent = code ∧
      ∃ lines : List Node, result.tree = lines.intersperse (.text "\n") ∧
        lines.map (·.textContent.toList) = [['a'], [], ['b']] ∧
        lines.filterMap (·.markedNumber?) = [.ofNat 2] := by
  intro parser h code fenceMeta request
  have hsome : ((h.highlight parser .bare request ()).1).toOption.isSome := by decide +kernel
  obtain ⟨result, hok⟩ : ∃ result, (h.highlight parser .bare request ()).1 = .ok result := by
    revert hsome
    cases (h.highlight parser .bare request ()).1 with
    | error reason => intro hsome; cases hsome
    | ok result => exact fun _ => ⟨result, rfl⟩
  have hcount : CodeBlock.lineCount request.code = 3 := by decide
  obtain ⟨htext, lines, htree, -, hlines, -, hmarked⟩ :=
    highlight_lines parser .bare request () hok
  have hselected := hmarked fenceMeta (by rw [hcount])
  have hnumbers : request.options.highlights = [2] := by decide +kernel
  have hpieces : request.code.toList.splitOn '\n' = [['a'], [], ['b']] := by decide +kernel
  rw [hnumbers] at hselected
  rw [hpieces] at hlines
  exact ⟨result, hok, htext, lines, htree, hlines, hselected⟩

end LocalHighlighter

end SyntaxStream
