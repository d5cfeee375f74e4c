import SyntaxStream.Highlight.Local
import SyntaxStream.Proofs.Segment.Newline
import SyntaxStream.Proofs.Transform.Queries
import SyntaxStream.Proofs.Transform.Stable

namespace SyntaxStream

open Text Segment

variable {σ : Type} {parser : SyntaxParser σ} {s : σ}

namespace Tokenizer

variable {t : Tokenizer} {language : Language} {source : String} {hasTree : Bool}
  {window : Window} {a b : Nat}

-- The highlight queries that are run while a window is segmented.
def segmentQueries (parser : SyntaxParser σ) (t : Tokenizer) (language : Language)
    (source : String) (hasTree : Bool) (window : Window) (s : σ) : List Query :=
  (t.segment parser.logging language source hasTree window (s, [])).2.2

-- The highlight queries that are run while a whole text is tokenized.
def queries (parser : SyntaxParser σ) (t : Tokenizer) (language : Language) (source : String)
    (s : σ) : List Query :=
  match t.tokenize parser.logging language source (s, []) with
  | .ok (_, _, log) => log
  | .error _ => []

-- The captures with which the windows of a text are painted, if its tree has the given ones.
def paintWith (t : Tokenizer) (language : Language) (hasTree : Bool) (raw : List RawCapture) :
    List Capture :=
  if t.supports language && language.hasGrammar && hasTree then Capture.ofRawList raw else []

theorem segment_logging (parser : SyntaxParser σ) (t : Tokenizer) (language : Language)
    (source : String) (hasTree : Bool) (window : Window) (s : σ) (log : List Query) :
    t.segment parser.logging language source hasTree window (s, log) =
      ((t.segment parser language source hasTree window s).1,
        (t.segment parser language source hasTree window s).2,
        log ++ t.segmentQueries parser language source hasTree window s) := by
  simp only [segmentQueries, segment]
  split
  · rw [List.append_nil]
  · split
    · rfl
    · rw [List.append_nil]

-- A window is painted with the captures of the whole tree, if its queries are answered by them.
theorem segment_eq_paintWith {raw : List RawCapture} (hab : a ≤ b)
    (hb : b ≤ (cells source.toList).length)
    (ha : ∀ query ∈ t.segmentQueries parser language source hasTree ⟨a, b⟩ s,
      query.answer = raw.filter (·.overlaps query.window)) :
    (t.segment parser language source hasTree ⟨a, b⟩ s).1 =
      paint (cells source.toList) ⟨a, b⟩ (t.paintWith language hasTree raw) := by
  rcases Nat.eq_or_lt_of_le hab with rfl | hlt
  · rw [segment_of_le (Nat.le_refl a), paint_self]
  · by_cases hg : (t.supports language && language.hasGrammar && hasTree) = true
    · rw [paintWith, if_pos hg]
      simp only [Bool.and_eq_true] at hg
      obtain ⟨⟨hs, hg⟩, rfl⟩ := hg
      apply segment_eq_paint hs hg hlt hb
      rw [segmentQueries, log_segment parser s hs hg hlt hb] at ha
      exact ha _ (List.mem_singleton_self _)
    · have hw : (Window.mk a b).isEmpty = false := by simpa [Window.isEmpty] using hlt
      simp only [segment, paintWith, clampTo_of_le hab hb, hw, hg, Bool.false_eq_true, if_false]

theorem lined_segment (hab : a ≤ b) (hb : b ≤ (cells source.toList).length) :
    ∀ span ∈ (t.segment parser language source hasTree ⟨a, b⟩ s).1,
      Lined (cells source.toList) span := by
  rcases Nat.eq_or_lt_of_le hab with rfl | hlt
  · rw [segment_of_le (Nat.le_refl a)]
    simp
  · obtain ⟨captures, hp⟩ := exists_paint parser t language hasTree s hlt hb
    rw [hp]
    exact lined_paint captures hb

-- Parses a text for the first time. Tells whether there is a tree; plain text has none.
def parseOnce (parser : SyntaxParser σ) (language : Language) (source : String) (s : σ) :
    Bool × σ :=
  if language.hasGrammar then
    ((parser.parse source s).1 != .failed, (parser.parse source s).2)
  else
    (false, s)

theorem parseOnce_logging (parser : SyntaxParser σ) (language : Language) (source : String)
    (s : σ) (log : List Query) :
    parseOnce parser.logging language source (s, log) =
      ((parseOnce parser language source s).1, (parseOnce parser language source s).2, log) := by
  unfold parseOnce
  split <;> rfl

theorem tokenize_eq (parser : SyntaxParser σ) (source : String) (s : σ)
    (hs : t.supports language = true) :
    t.tokenize parser language source s =
      .ok (t.segment parser language source (parseOnce parser language source s).1
        ⟨0, source.utf8ByteSize⟩ (parseOnce parser language source s).2) := by
  unfold tokenize parseOnce
  cases hg : language.hasGrammar <;> simp [parses, hs, hg, bind, Except.bind, pure, Except.pure]

theorem queries_eq (parser : SyntaxParser σ) (source : String) (s : σ)
    (hs : t.supports language = true) :
    t.queries parser language source s =
      t.segmentQueries parser language source (parseOnce parser language source s).1
        ⟨0, source.utf8ByteSize⟩ (parseOnce parser language source s).2 := by
  rw [queries, tokenize_eq parser.logging source (s, []) hs, parseOnce_logging, segment_logging]
  simp

end Tokenizer

namespace Transform

variable {t : Transform} {stableEnd : Nat}

theorem emitStable_eq (parser : SyntaxParser σ) (s : σ) (hle : t.delivered ≤ stableEnd) :
    t.emitStable parser stableEnd s =
      (t.delivery (t.tokenizer.segment parser t.language t.source t.hasTree
          ⟨t.delivered, stableEnd⟩ s).1,
        { t with delivered := stableEnd },
        (t.tokenizer.segment parser t.language t.source t.hasTree ⟨t.delivered, stableEnd⟩ s).2) := by
  rw [emitStable]
  by_cases h : stableEnd ≤ t.delivered
  · obtain rfl : t.delivered = stableEnd := Nat.le_antisymm hle h
    rw [if_pos h, Tokenizer.segment_of_le h]
    rfl
  · rw [if_neg h]
    rfl

theorem tokens_applyAll_delivery (buffer : TokenBuffer) (t : Transform) (spans : List Span) :
    (buffer.applyAll (t.delivery spans)).tokens = buffer.tokens ++ t.themed spans := by
  cases spans with
  | nil => simp [delivery, TokenBuffer.applyAll]
  | cons span spans => simp [delivery, TokenBuffer.applyAll, TokenBuffer.apply]

end Transform

namespace LocalHighlighter

variable {start : Transform} {code : String}

theorem reparse_of_new {tokenizer : Tokenizer} {language : Language} {themeId : String}
    {recalls : Bool} (h : Transform.new tokenizer language themeId recalls = .ok start)
    (parser : SyntaxParser σ) (code : String) (s : σ) :
    (start.reparse parser code s).2 =
      ({ start with
          source := code
          hasTree := (Tokenizer.parseOnce parser language code s).1 },
        (Tokenizer.parseOnce parser language code s).2) := by
  obtain ⟨theme, -, rfl⟩ := Transform.exists_of_new h
  cases hg : language.hasGrammar with
  | false => simp [Transform.reparse, Tokenizer.parseOnce, hg]
  | true =>
    rcases hp : parser.parse code s with ⟨_ | changed, s'⟩ <;>
      simp [Transform.reparse, Tokenizer.parseOnce, hg, hp]

-- The two windows of a block: its whole lines, then what follows its last newline.
theorem blockTokens_eq {tokenizer : Tokenizer} {language : Language} {themeId : String}
    (h : Transform.new tokenizer language themeId false = .ok start) (parser : SyntaxParser σ)
    (s : σ) (hc : code ≠ "") :
    let parsed := Tokenizer.parseOnce parser language code s
    let lines := tokenizer.segment parser language code parsed.1
      ⟨0, Transform.lineEnd code⟩ parsed.2
    let rest := tokenizer.segment parser language code parsed.1
      ⟨Transform.lineEnd code, code.utf8ByteSize⟩ lines.2
    blockTokens parser start code s =
      ({ start with source := code }.themed (lines.1 ++ rest.1), rest.2) := by
  have hparse := reparse_of_new h parser code s
  obtain ⟨theme, hs, rfl⟩ := Transform.exists_of_new h
  have hle : Transform.lineEnd code ≤ code.utf8ByteSize := by
    rw [utf8ByteSize_eq]
    exact le_length_of_isBoundary (isBoundary_lineEnd code)
  rw [blockTokens, Transform.push_of_stable rfl rfl hc, hparse, String.empty_append,
    Transform.emitStable_eq parser _ (Nat.zero_le _)]
  simp only
  rw [Transform.flush_of_stable rfl rfl, Transform.emitStable_eq parser _ hle]
  simp only [Transform.tokens_applyAll_delivery, Transform.themed_append, TokenBuffer.empty,
    List.nil_append]
  rfl

-- The highlight queries that are run while a whole block is highlighted.
def blockQueries (parser : SyntaxParser σ) (start : Transform) (code : String) (s : σ) :
    List Query :=
  (blockTokens parser.logging start code (s, [])).2.2

theorem blockQueries_eq {tokenizer : Tokenizer} {language : Language} {themeId : String}
    (h : Transform.new tokenizer language themeId false = .ok start) (parser : SyntaxParser σ)
    (s : σ) (hc : code ≠ "") :
    let parsed := Tokenizer.parseOnce parser language code s
    let window : Window := ⟨0, Transform.lineEnd code⟩
    blockQueries parser start code s =
      tokenizer.segmentQueries parser language code parsed.1 window parsed.2 ++
        tokenizer.segmentQueries parser language code parsed.1
          ⟨Transform.lineEnd code, code.utf8ByteSize⟩
          (tokenizer.segment parser language code parsed.1 window parsed.2).2 := by
  simp only [blockQueries, blockTokens_eq h parser.logging (s, []) hc,
    Tokenizer.parseOnce_logging, Tokenizer.segment_logging, List.nil_append]

-- A block in its two windows is painted as the whole text in one: the cut stands behind a newline.
theorem paint_block (code : String) (captures : List Capture) :
    paint (cells code.toList) ⟨0, code.utf8ByteSize⟩ captures =
      paint (cells code.toList) ⟨0, Transform.lineEnd code⟩ captures ++
        paint (cells code.toList) ⟨Transform.lineEnd code, code.utf8ByteSize⟩ captures := by
  have hsize := utf8ByteSize_eq code
  have hcut := isBoundary_lineEnd code
  apply paint_append_of_newline captures (Nat.zero_le _) _ (Nat.le_of_eq hsize) hcut
  · intro hpos _
    exact Or.inl ⟨_, newline_before_lineEnd hpos, rfl⟩
  · rw [hsize]
    exact le_length_of_isBoundary hcut

theorem blockTokens_empty {tokenizer : Tokenizer} {language : Language} {themeId : String}
    (h : Transform.new tokenizer language themeId false = .ok start) (parser : SyntaxParser σ)
    (s : σ) : (blockTokens parser start "" s).1 = [] := by
  obtain ⟨theme, -, rfl⟩ := Transform.exists_of_new h
  rw [blockTokens, Transform.push_of_idle (Or.inr rfl)]
  simp only
  rw [Transform.flush_of_stable rfl rfl, Transform.emitStable_eq parser _ (Nat.zero_le _)]
  simp only [Transform.tokens_applyAll_delivery]
  rw [Tokenizer.segment_of_le (Nat.le_of_eq String.utf8ByteSize_empty)]
  rfl

theorem blockTokens_eq_paint {tokenizer : Tokenizer} {language : Language} {themeId : String}
    {raw : List RawCapture} (h : Transform.new tokenizer language themeId false = .ok start)
    (hq : ∀ query ∈ blockQueries parser start code s,
      query.answer = raw.filter (·.overlaps query.window)) :
    (blockTokens parser start code s).1 =
      { start with source := code }.themed
        (paint (cells code.toList) ⟨0, code.utf8ByteSize⟩
          (tokenizer.paintWith language (Tokenizer.parseOnce parser language code s).1 raw)) := by
  by_cases hc : code = ""
  · subst hc
    rw [blockTokens_empty h parser s, String.utf8ByteSize_empty, paint_self]
    rfl
  · have hsize := utf8ByteSize_eq code
    have hle := le_length_of_isBoundary (isBoundary_lineEnd code)
    rw [blockQueries_eq h parser s hc] at hq
    have hlines := Tokenizer.segment_eq_paintWith (Nat.zero_le _) hle
      fun query hm => hq query (List.mem_append_left _ hm)
    have hrest := Tokenizer.segment_eq_paintWith (hsize ▸ hle) (Nat.le_of_eq hsize)
      fun query hm => hq query (List.mem_append_right _ hm)
    rw [blockTokens_eq h parser s hc]
    simp only
    rw [hlines, hrest, ← paint_block]

-- What a whole block is highlighted with are the spans of its text tokenized in one window. Both
-- start from the same parse, whether it fails or not, and its tree has the same captures for both.
theorem blockTokens_eq_tokenize {tokenizer : Tokenizer} {language : Language} {themeId : String}
    {start : Transform} (hnew : Transform.new tokenizer language themeId false = .ok start)
    (parser : SyntaxParser σ) (source : String) (s : σ) (raw : List RawCapture)
    (hblock : ∀ query ∈ blockQueries parser start source s,
      query.answer = raw.filter (·.overlaps query.window))
    (hwhole : ∀ query ∈ tokenizer.queries parser language source s,
      query.answer = raw.filter (·.overlaps query.window)) :
    ∃ spans final, tokenizer.tokenize parser language source s = .ok (spans, final) ∧
      (blockTokens parser start source s).1.map (fun token =>
          (token.offset, token.content, token.scope)) =
        spans.map fun span =>
          (span.start, slice (cells source.toList) span.start span.stop, span.scope) := by
  have hs : tokenizer.supports language = true := by
    obtain ⟨theme, hs, -⟩ := Transform.exists_of_new hnew
    exact hs
  have htokens := blockTokens_eq_paint hnew hblock
  have htokenize := Tokenizer.tokenize_eq parser source s hs
  rw [Tokenizer.queries_eq parser source s hs] at hwhole
  have hspans := Tokenizer.segment_eq_paintWith (Nat.zero_le _)
    (Nat.le_of_eq (utf8ByteSize_eq source)) hwhole
  generalize tokenizer.segment parser language source _ _ _ = segmented at htokenize hspans
  refine ⟨segmented.1, segmented.2, htokenize, ?_⟩
  rw [htokens, hspans, Transform.themed_eq_map, List.map_map]
  rfl

-- A comment across the last newline, and a function that encloses it.
theorem blockTokens_eq_tokenize_rust :
    let source := "a /*\n*/"
    let raw : List RawCapture := [⟨0, 7, 0, "function"⟩, ⟨2, 7, 1, "comment"⟩]
    let parser := SyntaxParser.ofCaptures raw
    let tokenizer := Tokenizer.bare .rust
    let start := Transform.bare .rust false
    Transform.new tokenizer .rust "bare" false = .ok start ∧
      (∀ query ∈ blockQueries parser start source (),
        query.answer = raw.filter (·.overlaps query.window)) ∧
      (∀ query ∈ tokenizer.queries parser .rust source (),
        query.answer = raw.filter (·.overlaps query.window)) ∧
      ∃ spans final, tokenizer.tokenize parser .rust source () = .ok (spans, final) ∧
        (blockTokens parser start source ()).1.map (·.content) =
          spans.map fun span => slice (cells source.toList) span.start span.stop := by
  intro source raw parser tokenizer start
  have hblock : ∀ query ∈ blockQueries parser start source (),
      query.answer = raw.filter (·.overlaps query.window) := by decide +kernel
  have hwhole : ∀ query ∈ tokenizer.queries parser .rust source (),
      query.answer = raw.filter (·.overlaps query.window) := by decide +kernel
  obtain ⟨spans, final, hspans, htokens⟩ := blockTokens_eq_tokenize
    (Transform.new_bare .rust false) parser source () raw hblock hwhole
  have hcontents := congrArg (List.map (·.2.1)) htokens
  rw [List.map_map, List.map_map] at hcontents
  exact ⟨Transform.new_bare .rust false, hblock, hwhole, spans, final, hspans, hcontents⟩

end LocalHighlighter

end SyntaxStream
