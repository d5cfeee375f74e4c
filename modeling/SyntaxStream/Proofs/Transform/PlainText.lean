import SyntaxStream.Proofs.Highlight.Block
import SyntaxStream.Proofs.Segment.Plain
import SyntaxStream.Proofs.Transform.Recovery
import SyntaxStream.Proofs.Transform.Shown

namespace SyntaxStream

open Text Segment

variable {σ : Type} {parser : SyntaxParser σ} {s : σ} {a b : Nat}

-- Tokens that show a text as it is, piece by piece from a byte offset on.
def Token.plainFrom : Nat → List String → List Token
  | _, [] => []
  | offset, piece :: rest =>
    ⟨piece, offset, none, none⟩ :: Token.plainFrom (offset + piece.utf8ByteSize) rest

-- The tokens of a plain text: its newlines and the longest runs of other characters.
def Token.plain (text : String) : List Token := Token.plainFrom 0 (lineRuns text)

theorem Token.map_tiles {cs : List Char} {spans : List Span} (h : Tiles (cells cs) spans a b)
    (ha : isBoundary (cells cs) a) :
    spans.map (fun span => (⟨slice (cells cs) span.start span.stop, span.start, none, none⟩ : Token)) =
      plainFrom a (spans.map fun span => slice (cells cs) span.start span.stop) := by
  induction spans generalizing a with
  | nil => rfl
  | cons span spans ih =>
    obtain ⟨rfl, hlt, hstop, hrest⟩ := h
    have hsize := utf8ByteSize_slice (Nat.le_of_lt hlt) ha hstop
    have hnext : span.start + (span.stop - span.start) = span.stop := by omega
    rw [List.map_cons, List.map_cons, plainFrom, hsize, hnext, ih hrest hstop]

theorem Token.plain_eq_map_paint (text : String) :
    Token.plain text = (paint (cells text.toList) ⟨0, text.utf8ByteSize⟩ []).map fun span =>
      ⟨slice (cells text.toList) span.start span.stop, span.start, none, none⟩ := by
  have htiles := tiles_paint [] (Nat.zero_le _) (isBoundary_utf8ByteSize text)
  rw [plain, ← map_slice_paint_nil, map_tiles htiles (isBoundary_zero _)]

theorem Tokenizer.segment_of_no_grammar {language : Language} (parser : SyntaxParser σ)
    (t : Tokenizer) (source : String) (hasTree : Bool) (s : σ) (hg : language.hasGrammar = false)
    (hab : a ≤ b) (hb : b ≤ (cells source.toList).length) :
    t.segment parser language source hasTree ⟨a, b⟩ s =
      (paint (cells source.toList) ⟨a, b⟩ [], s) := by
  rcases Nat.eq_or_lt_of_le hab with rfl | hlt
  · rw [segment_of_le (Nat.le_refl a), paint_self]
  · have hw : (Window.mk a b).isEmpty = false := by simpa [Window.isEmpty] using hlt
    simp only [segment, clampTo_of_le hab hb, hw, hg, Bool.and_false, Bool.false_and,
      Bool.false_eq_true, if_false]

namespace Transform

variable {t : Transform} {tokens : List Token} {chunk : String}

-- What holds of a transform that is bound to a language without a grammar.
structure Unparsed (t : Transform) : Prop where
  grammar : t.language.hasGrammar = false
  parsed : t.parsed = false

-- The spans of the text up to an offset if nothing in it is highlighted.
def plainSpans (t : Transform) (stop : Nat) : List Span :=
  paint (cells t.source.toList) ⟨0, stop⟩ []

theorem unparsed_of_new {tokenizer : Tokenizer} {language : Language} {themeId : String}
    {recalls : Bool} (h : Transform.new tokenizer language themeId recalls = .ok t)
    (hg : language.hasGrammar = false) : Unparsed t := by
  obtain ⟨theme, -, rfl⟩ := exists_of_new h
  exact ⟨hg, hg⟩

theorem Unparsed.step (h : Unparsed t) (parser : SyntaxParser σ) (call : Call) (s : σ) :
    Unparsed (t.step parser call s).2.1 := by
  obtain ⟨_, _, _, _, _, he⟩ := exists_step_state parser t call s
  rw [he]
  exact ⟨h.grammar, h.parsed⟩

theorem Unparsed.run (h : Unparsed t) (parser : SyntaxParser σ) (calls : List Call) (s : σ) :
    Unparsed (t.run parser calls s).2.1 :=
  holds_of_run h (fun _ h call s => h.step parser call s) calls s

theorem themed_plainSpans (t : Transform) :
    t.themed (t.plainSpans t.source.utf8ByteSize) = Token.plain t.source := by
  rw [Token.plain_eq_map_paint, themed_eq_map]
  apply List.map_congr_left
  intro span hm
  have hnone := highlight_of_mem_paint_nil hm
  rw [tokenOf, Span.scope, hnone]
  rfl

-- All live spans but the last one end before the end of the text.
theorem Recalling.exists_tiles_dropLast (h : Recalling t) :
    ∃ last stop, t.live = t.live.dropLast ++ last ∧
      Tiles (cells t.source.toList) t.live.dropLast 0 stop ∧
      (stop < t.source.utf8ByteSize ∨ stop = 0) := by
  by_cases hne : t.live = []
  · exact ⟨[], 0, by rw [hne]; rfl, by rw [hne]; rfl, Or.inr rfl⟩
  · have hsplit := List.dropLast_append_getLast hne
    have htiles := h.tiles
    rw [← hsplit] at htiles
    obtain ⟨stop, hfront, rfl, hlt, -, hend⟩ := htiles.exists_of_append
    exact ⟨[t.live.getLast hne], _, hsplit.symm, hfront, Or.inl (hend ▸ hlt)⟩

-- A chunk leaves all spans but the last as they are, and from there on the text is painted anew.
theorem Recalling.plain_push (h : Recalling t) (hu : Unparsed t)
    (hl : t.live = t.plainSpans t.source.utf8ByteSize) (hf : t.finished = false)
    (hc : chunk ≠ "") :
    (t.push parser chunk s).2.1.live =
      paint (cells (t.source ++ chunk).toList) ⟨0, (t.source ++ chunk).utf8ByteSize⟩ [] := by
  have hold := utf8ByteSize_eq t.source
  have hnew := utf8ByteSize_eq (t.source ++ chunk)
  have hle : t.source.utf8ByteSize ≤ (t.source ++ chunk).utf8ByteSize := by
    rw [String.utf8ByteSize_append]
    exact Nat.le_add_right _ _
  obtain ⟨last, stop, hsplit, hfront, hstop⟩ := h.exists_tiles_dropLast
  have htiles := h.tiles_reparse parser chunk s
  rw [h.push_live hf hc, liveAfter, renewed, resegmented]
  rw [reparse_of_plain hu.parsed] at htiles ⊢
  have hkept := keptSpans_of_none_changed (t := { t with source := t.source ++ chunk }) htiles hle
  have hresume := tiles_kept none true htiles
  rw [hkept] at hresume ⊢
  have hfront' := hfront.append_text chunk.toList
  rw [← String.toList_append] at hfront'
  rw [hresume.stop_unique hfront', Tokenizer.segment_of_no_grammar parser t.tokenizer
    (t.source ++ chunk) t.hasTree s hu.grammar (by omega) (Nat.le_of_eq hnew)]
  rw [plainSpans, hsplit] at hl
  rw [String.toList_append] at hnew ⊢
  exact (paint_nil_of_append chunk.toList hl.symm hfront hstop (Nat.le_of_eq hold) hle
    (Nat.le_of_eq hnew)).symm

theorem Recalling.plain_step (h : Recalling t) (hu : Unparsed t)
    (hl : t.live = t.plainSpans t.source.utf8ByteSize) (parser : SyntaxParser σ) (call : Call)
    (s : σ) :
    (t.step parser call s).2.1.live =
      (t.step parser call s).2.1.plainSpans (t.step parser call s).2.1.source.utf8ByteSize := by
  cases call with
  | push chunk =>
    simp only [Transform.step]
    rcases t.idle_or_taken chunk with hi | ⟨hf, hc⟩
    · rwa [push_of_idle hi]
    · rw [plainSpans, (push_taken_up parser hf chunk s).1, h.plain_push hu hl hf hc]
  | flush =>
    simp only [Transform.step]
    by_cases hf : t.finished = true
    · rwa [flush_of_finished hf]
    · rw [h.flush_eq (by simpa using hf)]
      exact hl

-- The emission up to the new stable end continues what has been emitted, as a line ended there.
theorem Delivering.plain_emitStable (h : Delivering t tokens) (hu : Unparsed t)
    (ht : tokens = t.themed (t.plainSpans t.stableSize)) (hf : t.finished = false)
    (parser : SyntaxParser σ) (more : String) (finished : Bool) (s : σ) :
    let longer := { t with source := t.source ++ more, finished }
    t.stableSize ≤ longer.stableSize →
    let emission := longer.emitStable parser longer.stableSize s
    tokens ++ Batch.emitted emission.1 =
      emission.2.1.themed (emission.2.1.plainSpans emission.2.1.stableSize) := by
  intro longer hle emission
  have hstop := le_length_of_isBoundary (isBoundary_stableSize longer)
  have hmark : longer.delivered ≤ longer.stableSize := h.mark.trans_le hle
  have hemission : emission =
      (longer.delivery (paint (cells longer.source.toList) ⟨longer.delivered, longer.stableSize⟩ []),
        { longer with delivered := longer.stableSize }, s) := by
    simp only [emission]
    rw [Transform.emitStable_eq parser s hmark, Tokenizer.segment_of_no_grammar parser _ _ _ _
      hu.grammar hmark hstop]
  have hcut : longer.plainSpans longer.stableSize = t.plainSpans t.stableSize ++
      paint (cells longer.source.toList) ⟨longer.delivered, longer.stableSize⟩ [] := by
    have hdelivered : longer.delivered = t.stableSize := h.mark
    rw [hdelivered]
    rw [stableSize_of_not_finished hf] at hle ⊢
    exact paint_of_lines t.source more [] hle hstop
  have hthemed : longer.themed (t.plainSpans t.stableSize) = t.themed (t.plainSpans t.stableSize) :=
    themed_append_source rfl rfl (tiles_paint [] (Nat.zero_le _) (isBoundary_stableSize t))
  rw [hemission, emitted_delivery, ht, ← hthemed, ← themed_append, ← hcut]
  rfl

theorem Delivering.plain_step (h : Delivering t tokens) (hu : Unparsed t)
    (ht : tokens = t.themed (t.plainSpans t.stableSize)) (parser : SyntaxParser σ) (call : Call)
    (s : σ) :
    let next := t.step parser call s
    tokens ++ Batch.emitted next.1 = next.2.1.themed (next.2.1.plainSpans next.2.1.stableSize) := by
  have hidle : tokens ++ Batch.emitted [] = t.themed (t.plainSpans t.stableSize) := by
    rw [Batch.emitted, List.flatMap_nil, List.append_nil, ht]
  cases call with
  | push chunk =>
    simp only [Transform.step]
    rcases t.idle_or_taken chunk with hi | ⟨hf, hc⟩
    · rwa [push_of_idle hi]
    · have hsize : { t with source := t.source ++ chunk }.stableSize =
          lineEnd (t.source ++ chunk) := stableSize_of_not_finished hf
      have hemit := h.plain_emitStable hu ht hf parser chunk t.finished s
      simp only [hsize, stableSize_of_not_finished hf] at hemit
      rw [push_of_stable h.stable hf hc, reparse_of_plain hu.parsed]
      exact hemit (lineEnd_le_append t.source chunk)
  | flush =>
    simp only [Transform.step]
    by_cases hf : t.finished = true
    · rwa [flush_of_finished hf]
    · have hf : t.finished = false := by simpa using hf
      have hle : t.stableSize ≤ t.source.utf8ByteSize :=
        utf8ByteSize_eq t.source ▸ le_length_of_isBoundary (isBoundary_stableSize t)
      have hemit := h.plain_emitStable hu ht hf parser "" true s
      simp only [String.append_empty, stableSize_of_finished] at hemit
      rw [flush_of_stable h.stable hf]
      exact hemit hle

-- What a consumer of a plain text holds between any two calls: the plain spans of all the text with
-- recalls, of what is emitted without.
def ShowsPlain (t : Transform) (tokens : List Token) : Prop :=
  (Recalling t ∧ t.live = t.plainSpans t.source.utf8ByteSize ∧ tokens = t.themed t.live) ∨
    (Delivering t tokens ∧ tokens = t.themed (t.plainSpans t.stableSize))

theorem showsPlain_of_new {tokenizer : Tokenizer} {language : Language} {themeId : String}
    {recalls : Bool} (h : Transform.new tokenizer language themeId recalls = .ok t) :
    t.ShowsPlain [] := by
  cases recalls with
  | true =>
    have hrecalling := recalling_of_new h
    obtain ⟨theme, -, rfl⟩ := exists_of_new h
    exact Or.inl ⟨hrecalling, (paint_self _ 0 []).symm, rfl⟩
  | false =>
    have hdelivering := delivering_of_new h
    obtain ⟨theme, -, rfl⟩ := exists_of_new h
    exact Or.inr ⟨hdelivering, (themed_eq_nil_iff.mpr (paint_self _ 0 [])).symm⟩

theorem ShowsPlain.step {buffer : TokenBuffer} (h : t.ShowsPlain buffer.tokens) (hu : Unparsed t)
    (parser : SyntaxParser σ) (call : Call) (s : σ) :
    (t.step parser call s).2.1.ShowsPlain (buffer.applyAll (t.step parser call s).1).tokens := by
  rcases h with ⟨hrecalling, hlive, htokens⟩ | ⟨hdelivering, htokens⟩
  · exact Or.inl ⟨hrecalling.step parser call s, hrecalling.plain_step hu hlive parser call s,
      (applyAll_step hrecalling htokens parser call s).1⟩
  · obtain ⟨hnext, hone⟩ := hdelivering.step parser call s
    rw [TokenBuffer.tokens_applyAll_of_atMostOne hone]
    exact Or.inr ⟨hnext, hdelivering.plain_step hu htokens parser call s⟩

theorem ShowsPlain.run {buffer : TokenBuffer} (h : t.ShowsPlain buffer.tokens) (hu : Unparsed t)
    (parser : SyntaxParser σ) (calls : List Call) (s : σ) :
    (t.run parser calls s).2.1.ShowsPlain (buffer.applyAll (t.run parser calls s).1).tokens := by
  induction calls generalizing t buffer s with
  | nil => exact h
  | cons call rest ih =>
    rw [run_cons, TokenBuffer.applyAll_append]
    exact ih (h.step hu parser call s) (hu.step parser call s) _

-- Once nothing is withheld the consumer has the tokens of the text.
theorem ShowsPlain.tokens_eq (h : t.ShowsPlain tokens)
    (hall : t.allowRecalls = true ∨ t.finished = true) : tokens = Token.plain t.source := by
  rcases h with ⟨-, hlive, rfl⟩ | ⟨hdelivering, rfl⟩
  · rw [hlive, themed_plainSpans]
  · have hfinished : t.finished = true :=
      hall.resolve_left (by rw [hdelivering.stable]; exact Bool.false_ne_true)
    rw [stableSize_of_finished hfinished, themed_plainSpans]

end Transform

-- A plain text in one go: one span for each newline and for each of the longest runs between them.
theorem Tokenizer.tokenize_plainText {tokenizer : Tokenizer} (parser : SyntaxParser σ)
    (source : String) (s : σ) (hs : tokenizer.supports .plainText = true) :
    tokenizer.tokenize parser .plainText source s =
      .ok (paint (cells source.toList) ⟨0, source.utf8ByteSize⟩ [], s) := by
  rw [tokenize_eq parser source s hs, segment_of_no_grammar parser tokenizer source _ _ rfl
    (Nat.zero_le _) (Nat.le_of_eq (utf8ByteSize_eq source))]
  rfl

namespace Transform

-- However a plain text is cut into chunks, and with recalls or without, the consumer holds the same
-- tokens as if the text had come in one piece: its newlines and the longest runs between them. With
-- recalls the consumer holds those of the text so far after each chunk.
theorem plain_text_of_chunks {tokenizer : Tokenizer} {themeId : String} {recalls : Bool}
    {start : Transform} (hnew : Transform.new tokenizer .plainText themeId recalls = .ok start)
    (parser : SyntaxParser σ) (chunks : List String) (s : σ) :
    let text := String.join chunks
    let pushed := start.run parser (chunks.map .push) s
    let flushed := pushed.2.1.flush parser pushed.2.2
    (recalls = true → (TokenBuffer.empty.applyAll pushed.1).tokens = Token.plain text) ∧
    (TokenBuffer.empty.applyAll (pushed.1 ++ flushed.1)).tokens = Token.plain text ∧
    ∃ spans, tokenizer.tokenize parser .plainText text s = .ok (spans, s) ∧
      (∀ span ∈ spans, span.highlight = none) ∧
      Token.plain text = spans.map fun span =>
        ⟨slice (cells text.toList) span.start span.stop, span.start, none, none⟩ := by
  intro text pushed flushed
  have hunparsed := unparsed_of_new hnew rfl
  have hshows : pushed.2.1.ShowsPlain (TokenBuffer.empty.applyAll pushed.1).tokens :=
    (showsPlain_of_new hnew : start.ShowsPlain TokenBuffer.empty.tokens).run hunparsed parser _ s
  have hend : flushed.2.1.ShowsPlain (TokenBuffer.empty.applyAll (pushed.1 ++ flushed.1)).tokens := by
    rw [TokenBuffer.applyAll_append]
    exact hshows.step (hunparsed.run parser (chunks.map .push) s) parser .flush pushed.2.2
  have hsource : pushed.2.1.source = text :=
    (run_of_new hnew parser _ s).1.trans (Call.pushed_map chunks)
  obtain ⟨_, _, hflush⟩ := exists_flush_state parser pushed.2.1 pushed.2.2
  obtain ⟨theme, hsupports, -⟩ := exists_of_new hnew
  refine ⟨?_, ?_, _, Tokenizer.tokenize_plainText parser text s hsupports,
    fun span hm => highlight_of_mem_paint_nil hm, Token.plain_eq_map_paint text⟩
  · rintro rfl
    have hrecalls := ((recalling_of_new hnew).run parser (chunks.map .push) s).recalls
    rw [hshows.tokens_eq (Or.inl hrecalls), hsource]
  · have hfinished : flushed.2.1.finished = true := by rw [hflush]
    have hflushed : flushed.2.1.source = text := by rw [hflush, hsource]
    rw [hend.tokens_eq (Or.inr hfinished), hflushed]

-- Chunks that end before a newline, behind one and within a run, and an empty one.
theorem plain_text_of_chunks_bare :
    let chunks := ["é", "\n", "", "\na", "b"]
    let reached := (bare .plainText false).run SyntaxParser.absent (chunks.map .push) ()
    let flushed := reached.2.1.flush SyntaxParser.absent reached.2.2
    Transform.new (Tokenizer.bare .plainText) .plainText "bare" false =
        .ok (bare .plainText false) ∧
      (TokenBuffer.empty.applyAll (reached.1 ++ flushed.1)).tokens =
        [⟨"é", 0, none, none⟩, ⟨"\n", 2, none, none⟩, ⟨"\n", 3, none, none⟩,
          ⟨"ab", 4, none, none⟩] := by
  intro chunks reached flushed
  have htext : Token.plain (String.join chunks) = [⟨"é", 0, none, none⟩, ⟨"\n", 2, none, none⟩,
      ⟨"\n", 3, none, none⟩, ⟨"ab", 4, none, none⟩] := by decide +kernel
  exact ⟨new_bare .plainText false, (plain_text_of_chunks (new_bare .plainText false)
    SyntaxParser.absent chunks ()).2.1.trans htext⟩

end Transform

end SyntaxStream
