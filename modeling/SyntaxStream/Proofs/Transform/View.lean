import SyntaxStream.Proofs.Transform.Bounds

namespace SyntaxStream.Transform

open Text Segment

variable {σ : Type} {parser : SyntaxParser σ} {t : Transform} {buffer : TokenBuffer} {s : σ}

-- A replacement leads a consumer of the old tokens to the new ones, and all it retracts are tokens
-- that the consumer has.
theorem applyAll_replacement {old new : List Span} {retained : Nat}
    (hb : buffer.tokens = t.themed old) (hr : retained ≤ (longestCommonPrefix old new).length) :
    (buffer.applyAll (t.replacement old new retained)).tokens = t.themed new ∧
      buffer.RetractsFit (t.replacement old new retained) := by
  have hlen : buffer.tokens.length = old.length := by rw [hb, length_themed]
  have hold := hr.trans (longestCommonPrefix_prefix_left old new).length_le
  have hprefix : t.themed (old.take retained) ++ t.themed (new.drop retained) = t.themed new := by
    rw [take_eq_take_of_le hr, ← themed_append, List.take_append_drop]
  -- after the retraction the consumer holds what is retained
  have hretract : ∃ first, buffer.applyAll
      (if retained < old.length then [.retract (old.length - retained)] else []) = first ∧
      first.tokens = t.themed (old.take retained) := by
    refine ⟨_, rfl, ?_⟩
    by_cases hlt : retained < old.length
    · have hkeep : old.length - (old.length - retained) = retained := by omega
      simp [hlt, TokenBuffer.applyAll, TokenBuffer.apply, hb, hkeep, themed_take]
    · simp [hlt, TokenBuffer.applyAll, hb, List.take_of_length_le (Nat.le_of_not_lt hlt)]
  obtain ⟨first, hfirst, htokens⟩ := hretract
  rw [replacement, TokenBuffer.applyAll_append, hfirst]
  constructor
  · by_cases hlt : retained < new.length
    · simp [hlt, TokenBuffer.applyAll, TokenBuffer.apply, htokens, hprefix]
    · rw [List.drop_of_length_le (Nat.le_of_not_lt hlt), themed_nil, List.append_nil] at hprefix
      simp [hlt, TokenBuffer.applyAll, htokens, hprefix]
  · apply TokenBuffer.RetractsFit.append
    · by_cases hlt : retained < old.length
      · simp only [hlt, if_true, TokenBuffer.RetractsFit, Batch.retract.injEq, and_true]
        rintro n rfl
        omega
      · simp [hlt, TokenBuffer.RetractsFit]
    · by_cases hlt : retained < new.length <;> simp [hlt, TokenBuffer.RetractsFit]

-- After a call a consumer that held the live tokens before it holds them again.
theorem applyAll_step (h : Recalling t) (hb : buffer.tokens = t.themed t.live)
    (parser : SyntaxParser σ) (call : Call) (s : σ) :
    (buffer.applyAll (t.step parser call s).1).tokens =
        (t.step parser call s).2.1.themed (t.step parser call s).2.1.live ∧
      buffer.RetractsFit (t.step parser call s).1 := by
  have hidle : (buffer.applyAll []).tokens = t.themed t.live ∧ buffer.RetractsFit [] :=
    ⟨hb, trivial⟩
  cases call with
  | push chunk =>
    rcases t.idle_or_taken chunk with hi | ⟨hf, hc⟩
    · simpa only [step, push_of_idle hi] using hidle
    · obtain ⟨hasTree, he⟩ := exists_reparse_eq parser t chunk s
      have hb' : buffer.tokens = (t.reparse parser chunk s).2.1.themed t.live := by
        have hlonger : (t.reparse parser chunk s).2.1.source = t.source ++ chunk := by rw [he]
        have htheme : (t.reparse parser chunk s).2.1.theme = t.theme := by rw [he]
        rw [hb, themed_append_source hlonger htheme h.tiles]
      simp only [step, h.push_eq hf hc]
      exact applyAll_replacement hb' (retainedLength_le_common _ _ _)
  | flush =>
    by_cases hf : t.finished = true
    · simpa only [step, flush_of_finished hf] using hidle
    · simp only [step, h.flush_eq (by simpa using hf)]
      exact ⟨hb, trivial⟩

theorem applyAll_run (h : Recalling t) (hb : buffer.tokens = t.themed t.live)
    (parser : SyntaxParser σ) (calls : List Call) (s : σ) :
    (buffer.applyAll (t.run parser calls s).1).tokens =
        (t.run parser calls s).2.1.themed (t.run parser calls s).2.1.live ∧
      buffer.RetractsFit (t.run parser calls s).1 := by
  induction calls generalizing t buffer s with
  | nil => exact ⟨hb, trivial⟩
  | cons call rest ih =>
    obtain ⟨htokens, hfit⟩ := applyAll_step h hb parser call s
    obtain ⟨htokens', hfit'⟩ := ih (h.step parser call s) htokens (t.step parser call s).2.2
    rw [run_cons]
    simp only [TokenBuffer.applyAll_append]
    exact ⟨htokens', hfit.append hfit'⟩

-- What a consumer holds with recalls, after any calls and whatever the parser has answered: the
-- tokens of the live spans, which are the text that was pushed. It never has to take back more
-- than it has, and the transform itself stays within all bounds.
theorem recall_consumer_view {tokenizer : Tokenizer} {language : Language} {themeId : String}
    {start : Transform} (hnew : Transform.new tokenizer language themeId true = .ok start)
    (parser : SyntaxParser σ) (calls : List Call) (s : σ) :
    let reached := start.run parser calls s
    let view := TokenBuffer.empty.applyAll reached.1
    view.tokens = reached.2.1.themed reached.2.1.live ∧
      view.text = reached.2.1.source ∧
      InPlace reached.2.1.source view.tokens ∧
      reached.2.1.source = Call.pushed calls ∧
      TokenBuffer.empty.RetractsFit reached.1 ∧
      ∀ call, reached.2.1.step? parser call reached.2.2 =
        some (reached.2.1.step parser call reached.2.2) := by
  have hstart := recalling_of_new hnew
  have hreached := hstart.run parser calls s
  have hempty : TokenBuffer.empty.tokens = start.themed start.live := by
    obtain ⟨theme, -, rfl⟩ := exists_of_new hnew
    rfl
  obtain ⟨hsource, -⟩ := run_of_new hnew parser calls s
  obtain ⟨htokens, hfit⟩ := applyAll_run hstart hempty parser calls s
  refine ⟨htokens, ?_, ?_, hsource, hfit, fun call => hreached.step?_eq parser call _⟩
  · rw [TokenBuffer.text, htokens, join_content_themed hreached.tiles, slice_zero_utf8ByteSize]
  · rw [htokens]
    exact inPlace_themed hreached.tiles

-- Captures within a character, past the end and reversed, and a parse that fails.
theorem recall_consumer_view_rust :
    let calls := [.push "é", .push "", .push "\n", .flush, .push "x", .flush]
    let answers : Recording := ⟨[.parsed [⟨9, 9⟩], .failed],
      [[⟨1, 2, 0, "string"⟩, ⟨0, 7, 1, "keyword"⟩, ⟨2, 1, 0, "tag"⟩]], false⟩
    let reached := (bare .rust true).run Recording.player calls answers
    Transform.new (Tokenizer.bare .rust) .rust "bare" true = .ok (bare .rust true) ∧
      (TokenBuffer.empty.applyAll reached.1).text = "é\n" ∧
      TokenBuffer.empty.RetractsFit reached.1 := by
  intro calls answers reached
  obtain ⟨-, htext, -, hsource, hfit, -⟩ :=
    recall_consumer_view (new_bare .rust true) Recording.player calls answers
  exact ⟨new_bare .rust true, htext.trans hsource, hfit⟩

end SyntaxStream.Transform
