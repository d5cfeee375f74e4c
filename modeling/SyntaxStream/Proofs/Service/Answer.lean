import SyntaxStream.Proofs.Highlight.Lines
import SyntaxStream.Proofs.Wire.Result
import SyntaxStream.Service

namespace SyntaxStream

open Text

-- A text has at most one line more than bytes.
theorem CodeBlock.lineCount_le (code : String) : lineCount code ≤ code.utf8ByteSize + 1 := by
  have hlength : ∀ cs : List Char, cs.length ≤ (cells cs).length := by
    intro cs
    induction cs with
    | nil => exact Nat.zero_le _
    | cons c cs ih =>
      have hpos := c.utf8Size_pos
      rw [cells_cons, List.length_append, length_cellsOf, List.length_cons]
      omega
  have hpieces := length_splitAll_le (· == '\n') code.toList
  have hbytes := hlength code.toList
  rw [lineCount, utf8ByteSize_eq]
  omega

namespace Node

theorem arePlain_intersperse {nodes : List Node} (h : ArePlain nodes) (text : String) :
    ArePlain (nodes.intersperse (.text text)) :=
  arePlain_iff.mpr (forall_mem_intersperse trivial (arePlain_iff.mp h))

theorem heights_intersperse_le {nodes : List Node} {n : Nat} (h : heights nodes ≤ n) (hn : 1 ≤ n)
    (text : String) : heights (nodes.intersperse (.text text)) ≤ n :=
  heights_le_iff.mpr (forall_mem_intersperse hn (heights_le_iff.mp h))

end Node

namespace Render

theorem isPlain_tokenNode (themes : List NamedTheme) (token : Token) :
    (tokenNode themes token).IsPlain ∧ (tokenNode themes token).height ≤ 2 := by
  unfold tokenNode
  split
  · exact ⟨trivial, Nat.le_succ 1⟩
  · rw [Node.IsPlain, entries_tokenProperties]
    refine ⟨⟨?_, trivial, trivial⟩, Nat.le_refl 2⟩
    intro entry hm
    obtain rfl := List.mem_singleton.mp hm
    exact ⟨trivial, rfl⟩

theorem isPlain_lineNode {line : List Token × Nat} (h : line.2 ≤ Json.Number.wordMax)
    (themes : List NamedTheme) (options : HighlightOptions) :
    (lineNode themes options line).IsPlain ∧ (lineNode themes options line).height ≤ 3 := by
  rw [lineNode, Node.IsPlain, Node.height, entries_lineProperties]
  refine ⟨⟨?_, ?_⟩, Nat.succ_le_succ ?_⟩
  · intro entry hm
    rcases List.mem_pair.mp hm with rfl | rfl
    · exact ⟨trivial, rfl⟩
    · exact ⟨⟨Int.natCast_nonneg _, Int.ofNat_le.mpr h⟩, rfl⟩
  · rw [Node.arePlain_iff]
    intro node hm
    obtain ⟨token, -, rfl⟩ := List.mem_map.mp hm
    exact (isPlain_tokenNode themes token).1
  · rw [Node.heights_le_iff]
    intro node hm
    obtain ⟨token, -, rfl⟩ := List.mem_map.mp hm
    exact (isPlain_tokenNode themes token).2

-- A rendered tree has no more than lines, their tokens and the texts of those within each other.
theorem arePlain_tree {tokens : List Token} (h : (tokenLines tokens).length ≤ Json.Number.wordMax)
    (themes : List NamedTheme) (options : HighlightOptions) :
    Node.ArePlain (tree themes options tokens) ∧
      Node.heights (tree themes options tokens) ≤ 3 := by
  have hline : ∀ node ∈ lineNodes themes options tokens, node.IsPlain ∧ node.height ≤ 3 := by
    intro node hm
    obtain ⟨line, hl, rfl⟩ := List.mem_map.mp hm
    apply isPlain_lineNode
    have hbound := (List.mem_zipIdx hl).2.1
    omega
  rw [tree_eq_intersperse]
  constructor
  · exact Node.arePlain_intersperse (Node.arePlain_iff.mpr fun node hm => (hline node hm).1) _
  · exact Node.heights_intersperse_le
      (Node.heights_le_iff.mpr fun node hm => (hline node hm).2) (by decide) _

end Render

variable {σ : Type}

theorem LocalHighlighter.arePlain_of_highlight {parser : SyntaxParser σ} {library : ThemeLibrary}
    {h : LocalHighlighter} {request : HighlightRequest} {s : σ} {result : HighlightResult}
    (hcode : request.code.utf8ByteSize < Json.Number.wordMax)
    (hok : (h.highlight parser library request s).1 = .ok result) :
    Node.ArePlain result.tree ∧ Node.heights result.tree ≤ 3 := by
  obtain ⟨tokenizer, language, themeId, start, themes, hnew, rfl⟩ := exists_of_highlight hok
  obtain ⟨hlined, hjoin⟩ := lined_blockTokens hnew parser request.code s
  apply Render.arePlain_tree
  have hlines := Render.length_tokenLines hlined
  have hcount := CodeBlock.lineCount_le request.code
  rw [hjoin] at hlines
  omega

namespace Service

-- A result that can be written is what its answer says.
theorem decode_report_ok [Codec] [Codec.ReadsBack] [Diagnostics] {result : HighlightResult}
    (hp : Node.ArePlain result.tree) (hh : Node.heights result.tree ≤ 3) :
    Remote.decode (report (.ok result)) = .ok result := by
  have hdepth : 2 * Node.heights result.tree + 2 ≤ Json.Document.depthLimit := by
    rw [Json.Document.depthLimit]
    omega
  have hbody := HighlightResult.decode_writeJson hp hdepth
  simp only [Remote.decode, report, hbody]
  rfl

-- A failure of the service is a failure of the request; it does not make the service absent.
theorem decode_report_error [Codec] [Diagnostics] (reason : HighlightError) :
    Remote.decode (report (.error reason)) = .error (.status 500) := rfl

end Service

end SyntaxStream
